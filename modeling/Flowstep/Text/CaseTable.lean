/-!
Data of the full case mappings: runs of characters whose other case lies at a fixed distance,
the characters whose other case is several characters, and the two classes that decide how a
final sigma is written.
-/
namespace Flowstep.Text

-- `count` characters from `first` on, each of which has its other case `shift` code points further on.
-- Where the two cases are neighbours, every second character is meant.
structure CaseRun where
  first : Nat
  count : Nat
  shift : Int

def CaseRun.inverse (r : CaseRun) : CaseRun := ⟨(r.first + r.shift).toNat, r.count, -r.shift⟩

-- A table of runs holds in turn how far a run begins after the one before, its count and its shift.
def caseRuns (start : Nat) : List Int → List CaseRun
  | gap :: count :: shift :: rest =>
    let first := start + gap.toNat
    ⟨first, count.toNat, shift⟩ :: caseRuns first rest
  | _ => []

def pairRuns : List CaseRun :=
  caseRuns 0 [97,26,-32,127,23,-32,24,7,-32,7,1,121,2,24,-1,50,3,-1,7,8,-1,17,23,-1,47,3,-1,6,1,195,3,2,-1,5,1,-1,4,1,
   -1,6,1,-1,3,1,97,4,1,-1,1,1,163,1,1,42561,3,1,130,3,3,-1,7,1,-1,5,1,-1,3,1,-1,4,2,-1,5,1,-1,4,1,-1,2,1,56,7,1,-2,3,
   1,-2,3,1,-2,2,8,-1,15,1,-79,2,9,-1,20,1,-2,2,1,-1,4,20,-1,42,9,-1,25,1,-1,3,2,10815,3,1,-1,5,5,-1,9,1,10783,1,1,
   10780,1,1,10782,1,1,-210,1,1,-206,2,2,-205,3,1,-202,2,1,-203,1,1,42319,4,1,-205,1,1,42315,2,1,-207,1,1,42343,1,1,
   42280,1,1,42308,2,1,-209,1,1,-211,1,1,42308,1,1,10743,1,1,42305,3,1,-211,2,1,10749,1,1,-213,3,1,-214,8,1,10727,3,1,
   -218,2,1,42307,1,1,-218,4,1,42282,1,1,-218,1,1,-69,1,2,-217,2,1,-71,6,1,-219,11,1,42261,1,1,42258,211,2,-1,6,1,-1,
   4,3,130,49,1,-38,1,3,-37,4,17,-32,18,9,-32,9,1,-64,1,2,-63,10,1,-8,2,12,-1,25,1,7,1,1,-116,5,1,-1,3,1,-1,53,32,-32,
   32,16,-80,17,17,-1,42,27,-1,55,7,-1,13,1,-15,2,48,-1,144,38,-48,2927,43,3008,45,3,3008,763,6,-8,2194,1,-1,239,1,
   35332,4,1,3814,17,1,35384,115,75,-1,160,48,-1,95,8,8,16,6,8,16,8,8,16,8,8,16,6,8,17,1,8,2,1,8,2,1,8,2,1,8,9,8,8,16,
   2,74,2,4,86,4,2,100,2,2,128,2,2,112,2,2,126,52,2,8,32,2,8,16,2,8,5,1,7,361,1,-28,34,16,-16,20,1,-1,844,26,-26,1888,
   48,-48,49,1,-1,4,1,-10795,1,1,-10792,2,3,-1,11,1,-1,3,1,-1,11,50,-1,107,2,-1,7,1,-1,13,38,-7264,39,1,-7264,6,1,
   -7264,30996,23,-1,64,14,-1,162,7,-1,16,31,-1,71,2,-1,5,5,-1,13,1,-1,5,2,-1,3,1,48,3,10,-1,30,8,-1,19,2,-1,5,8,-1,
   41,1,-1,861,1,-928,29,80,-38864,21457,26,-32,1255,40,-40,176,36,-40,191,11,-39,12,15,-39,16,7,-39,8,2,-39,1797,51,
   -64,176,22,-32,2896,32,-32,21920,32,-32,91,25,-27,31335,34,-34]

def upperRuns : List CaseRun :=
  caseRuns 0 [181,1,743,124,1,-232,78,1,-300,70,1,-1,3,1,-1,3,1,-1,39,1,-1,339,1,84,125,1,-31,14,1,-62,1,1,-57,4,1,
   -47,1,1,-54,26,1,-86,1,1,-80,4,1,-96,6283,1,-6254,1,1,-6253,1,1,-6244,1,2,-6242,2,1,-6243,1,1,-6236,1,1,-6181,1,1,
   35266,531,1,-59,291,1,-7205] ++ pairRuns

def lowerRuns : List CaseRun :=
  caseRuns 0 [453,1,1,3,1,1,3,1,1,39,1,1,514,1,-60,6826,1,-7615,234,8,-8,16,8,-8,16,8,-8,20,1,-9,16,1,-9,48,1,-9,298,
   1,-7517,4,1,-8383,1,1,-8262] ++ pairRuns.map CaseRun.inverse

def iotaExpansions : List (Nat × List Nat) :=
  [(0x1F80, 0x1F08), (0x1F90, 0x1F28), (0x1FA0, 0x1F68)].flatMap fun (first, capital) =>
    (List.range 16).map fun k => (first + k, [capital + k % 8, 0x399])

def upperExpansions : List (Nat × List Nat) :=
  [(0xDF, [0x53, 0x53]), (0x149, [0x2BC, 0x4E]), (0x1F0, [0x4A, 0x30C]),
   (0x390, [0x399, 0x308, 0x301]), (0x3B0, [0x3A5, 0x308, 0x301]), (0x587, [0x535, 0x552]),
   (0x1E96, [0x48, 0x331]), (0x1E97, [0x54, 0x308]), (0x1E98, [0x57, 0x30A]),
   (0x1E99, [0x59, 0x30A]), (0x1E9A, [0x41, 0x2BE]), (0x1F50, [0x3A5, 0x313]),
   (0x1F52, [0x3A5, 0x313, 0x300]), (0x1F54, [0x3A5, 0x313, 0x301]),
   (0x1F56, [0x3A5, 0x313, 0x342]), (0x1FB2, [0x1FBA, 0x399]), (0x1FB3, [0x391, 0x399]),
   (0x1FB4, [0x386, 0x399]), (0x1FB6, [0x391, 0x342]), (0x1FB7, [0x391, 0x342, 0x399]),
   (0x1FBC, [0x391, 0x399]), (0x1FC2, [0x1FCA, 0x399]), (0x1FC3, [0x397, 0x399]),
   (0x1FC4, [0x389, 0x399]), (0x1FC6, [0x397, 0x342]), (0x1FC7, [0x397, 0x342, 0x399]),
   (0x1FCC, [0x397, 0x399]), (0x1FD2, [0x399, 0x308, 0x300]), (0x1FD3, [0x399, 0x308, 0x301]),
   (0x1FD6, [0x399, 0x342]), (0x1FD7, [0x399, 0x308, 0x342]), (0x1FE2, [0x3A5, 0x308, 0x300]),
   (0x1FE3, [0x3A5, 0x308, 0x301]), (0x1FE4, [0x3A1, 0x313]), (0x1FE6, [0x3A5, 0x342]),
   (0x1FE7, [0x3A5, 0x308, 0x342]), (0x1FF2, [0x1FFA, 0x399]), (0x1FF3, [0x3A9, 0x399]),
   (0x1FF4, [0x38F, 0x399]), (0x1FF6, [0x3A9, 0x342]), (0x1FF7, [0x3A9, 0x342, 0x399]),
   (0x1FFC, [0x3A9, 0x399]), (0xFB00, [0x46, 0x46]), (0xFB01, [0x46, 0x49]), (0xFB02, [0x46, 0x4C]),
   (0xFB03, [0x46, 0x46, 0x49]), (0xFB04, [0x46, 0x46, 0x4C]), (0xFB05, [0x53, 0x54]),
   (0xFB06, [0x53, 0x54]), (0xFB13, [0x544, 0x546]), (0xFB14, [0x544, 0x535]),
   (0xFB15, [0x544, 0x53B]), (0xFB16, [0x54E, 0x546]), (0xFB17, [0x544, 0x53D])] ++
   iotaExpansions

def lowerExpansions : List (Nat × List Nat) :=
  [(0x130, [0x69, 0x307])]

def casedSpans : List Nat :=
  [65,26,6,26,47,1,10,1,4,1,5,23,1,31,1,195,1,4,4,208,2,35,7,2,30,5,96,1,42,4,2,2,2,4,1,1,6,1,1,3,1,1,1,20,1,83,1,139,8,
   166,1,38,9,41,2839,38,1,1,5,1,2,43,1,4,672,86,2,6,2178,11,5,43,2,3,64,192,64,278,2,6,2,38,2,6,2,8,1,1,1,1,1,1,1,31,2,
   53,1,7,1,1,3,3,1,7,3,4,2,6,4,13,5,3,1,7,116,1,13,1,16,13,101,1,4,1,2,10,1,1,3,5,6,1,1,1,1,1,1,4,1,6,4,1,2,4,5,5,4,1,
   17,32,3,2,817,52,1814,229,6,4,3,2,12,38,1,1,5,1,30994,46,18,30,132,102,3,4,1,77,20,6,1,3,821,43,1,14,6,80,20288,7,12,
   5,1033,26,6,26,1189,80,96,36,4,36,116,11,1,15,1,7,1,2,1,11,1,15,1,7,1,2,451,1,2,3,1,42,1,9,1221,51,13,51,93,22,10,22,
   2842,64,21856,64,32,25,2,25,25900,85,1,71,1,2,2,1,2,2,2,4,1,12,1,1,1,7,1,65,1,4,2,8,1,7,1,28,1,4,1,5,1,1,3,7,1,340,2,
   25,1,25,1,31,1,25,1,31,1,25,1,31,1,25,1,31,1,25,1,8,1844,10,1,20,6,6,261,62,2194,68,2028,26,6,26,6,26]

def caseIgnorableSpans : List Nat :=
  [39,1,6,1,11,1,35,1,1,1,71,1,4,1,1,1,4,1,2,2,503,192,4,2,4,1,9,2,1,1,251,7,207,1,5,1,49,45,1,1,1,2,1,2,1,1,44,1,11,6,
   10,11,1,1,35,1,10,21,16,1,101,8,1,10,1,4,33,1,1,1,30,27,91,11,58,11,4,1,2,1,24,24,43,3,44,1,7,2,5,9,41,58,55,1,1,1,4,
   8,4,1,3,7,10,2,13,1,15,1,58,1,4,4,8,1,20,2,26,1,2,2,57,1,4,2,4,2,2,3,3,1,30,2,3,1,11,2,57,1,4,5,1,2,4,1,20,2,22,6,1,
   1,58,1,2,1,1,4,8,1,7,2,11,2,30,1,61,1,12,1,50,1,3,1,55,1,1,3,5,3,1,4,7,2,11,2,29,1,58,1,2,1,6,1,5,2,20,2,28,2,57,2,4,
   4,8,1,20,2,29,1,72,1,7,3,1,1,90,1,2,7,11,9,98,1,2,9,9,1,1,7,73,2,27,1,1,1,1,1,55,14,1,5,1,2,5,11,1,36,9,1,102,4,1,6,
   1,2,2,2,25,2,4,3,16,4,13,1,2,2,6,1,15,1,94,1,608,3,946,3,29,2,30,2,30,2,64,2,1,7,8,1,2,11,3,1,5,1,45,5,51,1,65,2,34,
   1,118,3,4,2,9,1,6,3,219,2,2,1,58,1,1,7,1,1,1,1,2,8,6,10,2,1,39,1,8,46,2,12,20,4,48,1,1,5,1,1,5,1,40,9,12,2,32,4,2,2,
   1,3,56,1,1,2,3,1,1,3,58,8,2,2,64,6,82,3,1,13,1,7,4,1,6,1,3,2,50,63,13,1,34,101,445,1,1,3,11,3,13,3,13,3,13,2,12,5,8,
   2,10,1,2,1,2,5,49,5,1,10,1,1,13,1,16,13,51,33,2955,2,113,3,125,1,15,1,96,32,47,1,469,1,36,4,3,5,5,1,93,6,93,3,28438,
   1,1250,6,270,1,98,4,1,10,1,1,28,4,80,2,14,34,78,1,23,3,102,4,3,2,8,1,3,1,4,1,25,2,5,1,151,2,26,18,13,1,38,8,25,11,46,
   3,48,1,2,4,2,2,17,1,21,2,66,6,2,2,2,2,12,1,8,1,35,1,11,1,51,1,1,3,2,2,5,2,1,1,27,1,14,2,5,2,1,1,100,5,9,3,121,1,2,1,
   4,1,20272,1,147,17,573,16,3,1,12,16,34,1,2,1,169,1,7,1,6,1,11,1,35,1,1,1,47,1,45,2,67,1,21,3,513,1,226,1,149,5,1029,
   6,1,42,1,9,582,3,1,2,5,4,40,3,4,1,165,2,573,4,38,1,26,5,1,1,315,2,24,1,52,6,70,11,49,4,123,1,54,15,41,1,2,2,10,3,49,
   4,2,2,2,1,4,1,10,1,50,3,36,5,1,8,62,1,12,2,52,9,10,4,2,1,95,3,2,1,1,2,6,1,2,1,157,1,3,8,21,2,57,2,3,1,37,7,3,5,70,6,
   13,1,1,1,1,1,14,2,85,8,2,3,1,1,23,1,84,6,1,1,4,2,1,2,238,4,6,2,1,2,27,2,85,8,2,1,1,2,106,1,1,1,2,6,1,1,101,1,1,1,2,4,
   1,5,259,9,1,2,256,2,1,1,4,1,144,4,2,2,4,1,32,10,40,6,2,4,8,1,9,6,2,3,46,13,1,2,198,1,1,3,1,1,201,7,1,6,1,1,82,22,2,7,
   1,2,1,2,122,6,3,1,1,2,1,7,1,1,72,2,3,1,1,1,65,1,281,2,11,2,52,5,5,1,1,1,23,1,5333,17,6,15,11464,12,3,3,2496,5,59,7,9,
   4,508,3,40,2,482,1,63,17,64,2,1,2,13,2,16380,4,1,7,1,2,3230,2,1,4,4700,46,2,23,544,3,9,16,2,7,30,4,148,3,1979,55,4,
   50,8,1,14,1,22,5,1,15,1360,7,1,17,2,7,1,2,1,5,5,62,33,1,160,14,368,1,61,4,507,5,254,2,243,1,2,1,7,2,5,1,9,1,464,7,
   109,8,2735,5,789505,1,30,96,128,240]

end Flowstep.Text
