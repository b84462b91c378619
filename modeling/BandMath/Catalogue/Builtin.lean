/-
# The built-in catalogue

The bands, constants and indices that are known without loading anything, from which
`Registry.builtin` is made.  They are the contents of the three documents that come with the
program, written as records and not as texts, so no document is read when the built-in registry is
asked for.

* Bands and constants stand under their own symbols, so for the built-in catalogue the key of a
  record and the symbol that it names are never different.  That is not so of every catalogue
  (`Registry.fillDefaults`).
* Indices stand under their own names.  Their formulas mention only symbols that the records list,
  and the records list only symbols of bands and constants.  No formula calls a function
  (`Registry.calls_of_builtin`), so an index has a value once its symbols have.
* Some constants have no default.  An index that requires one of them cannot be computed from bands
  and defaults alone; kernel indices, which require the values of kernels, are of this sort.

Formulas are kept as they are written down, with blanks and all; what blanks mean is decided where
formulas are read (`BandMath.Formula.Lexeme`).
-/
import BandMath.Catalogue.Record

namespace BandMath.Catalogue

namespace Builtin

/-! ## 1. Symbols -/

/-- Bands in the order of their symbols. -/
def bands : List Band :=
  [{ symbol := "A", longName := "Aerosols", commonName := some "coastal",
     minWavelength := 400, maxWavelength := 455 },
   { symbol := "B", longName := "Blue", commonName := some "blue",
     minWavelength := 450, maxWavelength := 530 },
   { symbol := "G", longName := "Green", commonName := some "green",
     minWavelength := 510, maxWavelength := 600 },
   { symbol := "N", longName := "Near-Infrared (NIR)", commonName := some "nir",
     minWavelength := 760, maxWavelength := 900 },
   { symbol := "R", longName := "Red", commonName := some "red",
     minWavelength := 620, maxWavelength := 690 },
   { symbol := "RE1", longName := "Red Edge 1", commonName := some "rededge",
     minWavelength := 695, maxWavelength := 715 },
   { symbol := "RE2", longName := "Red Edge 2", commonName := some "rededge",
     minWavelength := 730, maxWavelength := 749 },
   { symbol := "RE3", longName := "Red Edge 3", commonName := some "rededge",
     minWavelength := 765, maxWavelength := 795 },
   { symbol := "RE4", longName := "Red Edge 4", commonName := some "rededge",
     minWavelength := 850, maxWavelength := 880 },
   { symbol := "S1", longName := "Short-wavelength Infrared (SWIR) 1", commonName := some "swir16",
     minWavelength := 1550, maxWavelength := 1750 },
   { symbol := "S2", longName := "Short-wavelength Infrared (SWIR) 2", commonName := some "swir22",
     minWavelength := 2080, maxWavelength := 2350 },
   { symbol := "T1", longName := "Thermal Infrared 1", commonName := some "lwir11",
     minWavelength := 10400, maxWavelength := 11300 },
   { symbol := "T2", longName := "Thermal Infrared 2", commonName := some "lwir12",
     minWavelength := 11500, maxWavelength := 12500 }]

/-- Constants in the order of their symbols. -/
def constants : List Constant :=
  [{ symbol := "C1", description := "Coefficient 1 for the aerosol resistance term",
     default := some 6.0 },
   { symbol := "C2", description := "Coefficient 2 for the aerosol resistance term",
     default := some 7.5 },
   { symbol := "L", description := "Canopy background adjustment", default := some 1.0 },
   { symbol := "alpha", description := "Weighting coefficient used for WDRVI",
     default := some 0.1 },
   { symbol := "c", description := "Trade-off parameter in the polynomial kernel",
     default := some 1.0 },
   { symbol := "cexp", description := "Exponent used for OCVI", default := some 1.16 },
   { symbol := "g", description := "Gain factor", default := some 2.5 },
   { symbol := "kNB", description := "Kernel of N and B" },
   { symbol := "kNL", description := "Kernel of N and L" },
   { symbol := "kNN", description := "Kernel of N and N", default := some 1.0 },
   { symbol := "kNR", description := "Kernel of N and R" },
   { symbol := "nexp", description := "Exponent used for GDVI", default := some 2.0 },
   { symbol := "p", description := "Kernel degree in the polynomial kernel", default := some 2.0 },
   { symbol := "sigma", description := "Length-scale parameter in the RBF kernel" },
   { symbol := "sla", description := "Soil line slope", default := some 1.0 },
   { symbol := "slb", description := "Soil line intercept", default := some 0.0 }]

/-! ## 2. Indices -/

/-- Platforms with the visible and near-infrared bands. -/
def opticalPlatforms : List String :=
  ["Landsat-TM", "Landsat-ETM+", "Landsat-OLI", "Sentinel-2", "MODIS", "Planet-Fusion"]

/-- Platforms with short-wave infrared bands. -/
def shortwavePlatforms : List String :=
  ["Landsat-OLI", "Sentinel-2", "MODIS"]

/-- Who added the indices. -/
def contributor : String := "https://github.com/davemlz"

/-- Indices in the order of their names. -/
def indices : List IndexRecord :=
  [{ name := "BAI"
     formula := "1.0 / ((0.1 - R) ** 2.0 + (0.06 - N) ** 2.0)"
     symbols := ["R", "N"]
     metadata :=
       { longName := "Burned Area Index"
         domain := "burn"
         reference :=
           "https://digital.csic.es/bitstream/10261/6426/1/Martin_Isabel_Serie_Geografica.pdf"
         contributor
         dateAdded := "2021-04-07"
         platforms := opticalPlatforms } },
   { name := "BSI"
     formula := "((S1 + R) - (N + B))/((S1 + R) + (N + B))"
     symbols := ["S1", "R", "N", "B"]
     metadata :=
       { longName := "Bare Soil Index"
         domain := "soil"
         reference := "https://doi.org/10.1109/AIPR.2009.5466297"
         contributor
         dateAdded := "2021-04-07"
         platforms := shortwavePlatforms } },
   { name := "CIG"
     formula := "(N / G) - 1.0"
     symbols := ["N", "G"]
     metadata :=
       { longName := "Chlorophyll Index Green"
         domain := "vegetation"
         reference := "https://doi.org/10.1078/0176-1617-00887"
         contributor
         dateAdded := "2021-04-08"
         platforms := opticalPlatforms } },
   { name := "EVI"
     formula := "g * (N - R) / (N + C1 * R - C2 * B + L)"
     symbols := ["g", "N", "R", "C1", "C2", "B", "L"]
     metadata :=
       { longName := "Enhanced Vegetation Index"
         domain := "vegetation"
         reference := "https://doi.org/10.1016/S0034-4257(96)00112-5"
         contributor
         dateAdded := "2021-04-07"
         platforms := opticalPlatforms } },
   { name := "EVI2"
     formula := "g * (N - R) / (N + 2.4 * R + L)"
     symbols := ["g", "N", "R", "L"]
     metadata :=
       { longName := "Two-Band Enhanced Vegetation Index"
         domain := "vegetation"
         reference := "https://doi.org/10.1016/j.rse.2008.06.006"
         contributor
         dateAdded := "2021-04-07"
         platforms := opticalPlatforms } },
   { name := "GDVI"
     formula := "((N ** nexp) - (R ** nexp)) / ((N ** nexp) + (R ** nexp))"
     symbols := ["N", "nexp", "R"]
     metadata :=
       { longName := "Generalized Difference Vegetation Index"
         domain := "vegetation"
         reference := "https://doi.org/10.3390/rs6021211"
         contributor
         dateAdded := "2021-04-07"
         platforms := opticalPlatforms } },
   { name := "GNDVI"
     formula := "(N - G)/(N + G)"
     symbols := ["N", "G"]
     metadata :=
       { longName := "Green Normalized Difference Vegetation Index"
         domain := "vegetation"
         reference := "https://doi.org/10.1016/S0034-4257(96)00072-7"
         contributor
         dateAdded := "2021-04-07"
         platforms := opticalPlatforms } },
   { name := "MNDWI"
     formula := "(G - S1) / (G + S1)"
     symbols := ["G", "S1"]
     metadata :=
       { longName := "Modified Normalized Difference Water Index"
         domain := "water"
         reference := "https://doi.org/10.1080/01431160600589179"
         contributor
         dateAdded := "2021-04-07"
         platforms := shortwavePlatforms } },
   { name := "NBR"
     formula := "(N - S2) / (N + S2)"
     symbols := ["N", "S2"]
     metadata :=
       { longName := "Normalized Burn Ratio"
         domain := "burn"
         reference := "https://doi.org/10.3133/ofr0211"
         contributor
         dateAdded := "2021-04-07"
         platforms := shortwavePlatforms } },
   { name := "NDBI"
     formula := "(S1 - N) / (S1 + N)"
     symbols := ["S1", "N"]
     metadata :=
       { longName := "Normalized Difference Built-Up Index"
         domain := "urban"
         reference := "https://doi.org/10.1080/01431160304987"
         contributor
         dateAdded := "2021-04-07"
         platforms := shortwavePlatforms } },
   { name := "NDRE"
     formula := "(N - RE1) / (N + RE1)"
     symbols := ["N", "RE1"]
     metadata :=
       { longName := "Normalized Difference Red Edge"
         domain := "vegetation"
         reference := "https://doi.org/10.1016/1011-1344(93)06963-4"
         contributor
         dateAdded := "2021-04-07"
         platforms := ["Sentinel-2", "Planet-Fusion"] } },
   { name := "NDSI"
     formula := "(G - S1) / (G + S1)"
     symbols := ["G", "S1"]
     metadata :=
       { longName := "Normalized Difference Snow Index"
         domain := "snow"
         reference := "https://doi.org/10.1109/IGARSS.1994.399618"
         contributor
         dateAdded := "2021-04-07"
         platforms := shortwavePlatforms } },
   { name := "NDVI"
     formula := "(N - R)/(N + R)"
     symbols := ["N", "R"]
     metadata :=
       { longName := "Normalized Difference Vegetation Index"
         domain := "vegetation"
         reference := "https://ntrs.nasa.gov/citations/19740022614"
         contributor
         dateAdded := "2021-04-07"
         platforms := opticalPlatforms } },
   { name := "NDWI"
     formula := "(G - N) / (G + N)"
     symbols := ["G", "N"]
     metadata :=
       { longName := "Normalized Difference Water Index"
         domain := "water"
         reference := "https://doi.org/10.1080/01431169608948714"
         contributor
         dateAdded := "2021-04-07"
         platforms := opticalPlatforms } },
   { name := "NIRv"
     formula := "((N - R) / (N + R)) * N"
     symbols := ["N", "R"]
     metadata :=
       { longName := "Near-Infrared Reflectance of Vegetation"
         domain := "vegetation"
         reference := "https://doi.org/10.1126/sciadv.1602244"
         contributor
         dateAdded := "2021-04-08"
         platforms := opticalPlatforms } },
   { name := "OCVI"
     formula := "(N / G) * (R / G) ** cexp"
     symbols := ["N", "G", "R", "cexp"]
     metadata :=
       { longName := "Optimized Chlorophyll Vegetation Index"
         domain := "vegetation"
         reference :=
           "http://www.asprs.org/wp-content/uploads/pers/2007journal/july/2007_jul_837-845.pdf"
         contributor
         dateAdded := "2021-04-08"
         platforms := opticalPlatforms } },
   { name := "OSAVI"
     formula := "(N - R) / (N + R + 0.16)"
     symbols := ["N", "R"]
     metadata :=
       { longName := "Optimized Soil-Adjusted Vegetation Index"
         domain := "vegetation"
         reference := "https://doi.org/10.1016/0034-4257(95)00186-7"
         contributor
         dateAdded := "2021-04-07"
         platforms := opticalPlatforms } },
   { name := "SAVI"
     formula := "((N - R)/(N + R + L)) * (1.0 + L)"
     symbols := ["N", "R", "L"]
     metadata :=
       { longName := "Soil-Adjusted Vegetation Index"
         domain := "vegetation"
         reference := "https://doi.org/10.1016/0034-4257(88)90106-X"
         contributor
         dateAdded := "2021-04-07"
         platforms := opticalPlatforms } },
   { name := "WDRVI"
     formula := "(alpha * N - R) / (alpha * N + R)"
     symbols := ["alpha", "N", "R"]
     metadata :=
       { longName := "Wide Dynamic Range Vegetation Index"
         domain := "vegetation"
         reference := "https://doi.org/10.1078/0176-1617-01176"
         contributor
         dateAdded := "2021-04-07"
         platforms := opticalPlatforms } },
   { name := "kEVI"
     formula := "g * (kNN - kNR) / (kNN + C1 * kNR - C2 * kNB + kNL)"
     symbols := ["g", "kNN", "kNR", "C1", "C2", "kNB", "kNL"]
     metadata :=
       { longName := "Kernel Enhanced Vegetation Index"
         domain := "kernel"
         reference := "https://doi.org/10.1126/sciadv.abc7447"
         contributor
         dateAdded := "2021-04-07"
         platforms := opticalPlatforms } },
   { name := "kNDVI"
     formula := "(kNN - kNR)/(kNN + kNR)"
     symbols := ["kNN", "kNR"]
     metadata :=
       { longName := "Kernel Normalized Difference Vegetation Index"
         domain := "kernel"
         reference := "https://doi.org/10.1126/sciadv.abc7447"
         contributor
         dateAdded := "2021-04-07"
         platforms := opticalPlatforms } }]

end Builtin

/-- The built-in catalogue. -/
def builtin : Catalogue where
  bands := .ofList (Builtin.bands.map fun b => (b.symbol, b))
  constants := .ofList (Builtin.constants.map fun c => (c.symbol, c))
  indices := .ofList (Builtin.indices.map fun r => (r.name, r))

end BandMath.Catalogue
