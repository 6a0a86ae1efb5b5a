/-!
# Codes that stand for plain text

The codes beyond ASCII that stand for a text of ASCII, such as digits in circles and
ligatures.  The fractions are among them, whose slash is one of their own.
-/

namespace PredictionMarket.Http.Host

/-- Codes in a row, from a first one on, that stand for one character each. -/
def plainLetters : List (Nat × String) :=
  [(0xAA, "a"), (0xB2, "23"), (0xB9, "1o"), (0x17F, "s"), (0x2B0, "h"), (0x2B2, "jr"),
    (0x2B7, "wy"), (0x2E1, "lsx"), (0x37E, ";"), (0x1D2C, "a"), (0x1D2E, "b"), (0x1D30, "de"),
    (0x1D33, "ghijklmn"), (0x1D3C, "o"), (0x1D3E, "prtuwa"), (0x1D47, "bde"), (0x1D4D, "g"),
    (0x1D4F, "km"), (0x1D52, "o"), (0x1D56, "ptu"), (0x1D5B, "v"), (0x1D62, "iruv"), (0x1D9C, "c"),
    (0x1DA0, "f"), (0x1DBB, "z"), (0x1FEF, "\x60"), (0x2070, "0i"), (0x2074, "456789+"),
    (0x207C, "=()n0123456789+"), (0x208C, "=()"), (0x2090, "aeox"), (0x2095, "hklmnpst"),
    (0x2102, "c"), (0x210A, "ghhhh"), (0x2110, "iill"), (0x2115, "n"), (0x2119, "pqrrr"),
    (0x2124, "z"), (0x2128, "z"), (0x212A, "k"), (0x212C, "bc"), (0x212F, "eef"), (0x2133, "mo"),
    (0x2139, "i"), (0x2145, "ddeij"), (0x2160, "i"), (0x2164, "v"), (0x2169, "x"),
    (0x216C, "lcdmi"), (0x2174, "v"), (0x2179, "x"), (0x217C, "lcdm"), (0x2460, "123456789"),
    (0x24B6, "abcdefghijklmnopqrstuvwxyzabcdefghijklmnopqrstuvwxyz0"), (0x2C7C, "jv"),
    (0x3002, "."), (0xA7F2, "cfq"), (0xFB29, "+"), (0xFE10, ","), (0xFE14, ";!"),
    (0xFE33, "__()\x7b\x7d"), (0xFE4D, "___,"), (0xFE54, ";"), (0xFE57, "!"),
    (0xFE59, "()\x7b\x7d"), (0xFE60, "&*+-<>="), (0xFE69, "$"), (0xFF61, "."), (0x107A5, "q"),
    (0x1F12B, "cr"), (0x1F130, "abcdefghijklmnopqrstuvwxyz"), (0x1FBF0, "0123456789")]

/-- Codes in a row, from a first one on, that stand for one word each, with blanks
between the words. -/
def plainWords : List (Nat × String) :=
  [(0xBC, "1⁄4 1⁄2 3⁄4"), (0x132, "ij ij"), (0x1C7, "lj lj lj nj nj nj"), (0x1F1, "dz dz dz"),
    (0x203C, "!!"), (0x20A8, "rs"), (0x2116, "no"), (0x2120, "sm tel tm"), (0x213B, "fax"),
    (0x2150, "1⁄7 1⁄9 1⁄10 1⁄3 2⁄3 1⁄5 2⁄5 3⁄5 4⁄5 1⁄6 5⁄6 1⁄8 3⁄8 5⁄8 7⁄8 1⁄"),
    (0x2161, "ii iii iv"), (0x2165, "vi vii viii ix"), (0x216A, "xi xii"), (0x2171, "ii iii iv"),
    (0x2175, "vi vii viii ix"), (0x217A, "xi xii"), (0x2189, "0⁄3"),
    (0x2469, "10 11 12 13 14 15 16 17 18 19 20 (1) (2) (3) (4) (5) (6) (7) (8) (9) (10) (11)"),
    (0x247F, "(12) (13) (14) (15) (16) (17) (18) (19) (20)"),
    (0x249C, "(a) (b) (c) (d) (e) (f) (g) (h) (i) (j) (k) (l) (m) (n) (o) (p) (q) (r) (s) (t)"),
    (0x24B0, "(u) (v) (w) (x) (y) (z)"), (0x2A75, "== ==="),
    (0x3250, "pte 21 22 23 24 25 26 27 28 29 30 31 32 33 34 35"),
    (0x32B1, "36 37 38 39 40 41 42 43 44 45 46 47 48 49 50"), (0x32CC, "hg erg ev ltd"),
    (0x3371, "hpa da au bar ov pc dm dm2 dm3 iu"), (0x3380, "pa na"),
    (0x3383, "ma ka kb mb gb cal kcal pf nf"), (0x338E, "mg kg hz khz mhz ghz thz"),
    (0x3396, "ml dl kl fm nm"), (0x339C, "mm cm km mm2 cm2 m2 km2 mm3 cm3 m3 km3"),
    (0x33A9, "pa kpa mpa gpa rad"), (0x33B0, "ps ns"), (0x33B3, "ms pv nv"),
    (0x33B7, "mv kv mv pw nw"), (0x33BD, "mw kw mw"), (0x33C3, "bq cc cd"),
    (0x33C8, "db gy ha hp in kk km kt lm ln log lx mb mil mol ph"), (0x33D9, "ppm pr sr sv wb"),
    (0x33FF, "gal"), (0xFB00, "ff fi fl ffi ffl st st"), (0x1F101, "0, 1, 2, 3, 4, 5, 6, 7, 8, 9,"),
    (0x1F110, "(a) (b) (c) (d) (e) (f) (g) (h) (i) (j) (k) (l) (m) (n) (o) (p) (q) (r) (s) (t)"),
    (0x1F124, "(u) (v) (w) (x) (y) (z)"), (0x1F12D, "cd wz"), (0x1F14A, "hv mv sd ss ppv wc"),
    (0x1F16A, "mc md mr"), (0x1F190, "dj")]

/-- The first answer that a row gives for the place of a code in it. -/
def inRows? (rows : List (Nat × String)) (answer? : List Char → Nat → Option (List Char))
    (n : Nat) : Option (List Char) :=
  rows.findSome? fun (first, row) => if first ≤ n then answer? row.toList (n - first) else none

/-- The plain text that a code stands for, if it stands for one. -/
def plainText? (n : Nat) : Option (List Char) :=
  if 0xFF01 ≤ n && n ≤ 0xFF5E then some [(Char.ofNat (n - 0xFEE0)).toLower]
  else if 0x1D400 ≤ n && n ≤ 0x1D6A3 then some [Char.ofNat ('a'.toNat + (n - 0x1D400) % 26)]
  else if 0x1D7CE ≤ n && n ≤ 0x1D7FF then some [Char.ofNat ('0'.toNat + (n - 0x1D7CE) % 10)]
  else
    (inRows? plainLetters (fun row place => row[place]?.map ([·])) n).or
      (inRows? plainWords (fun row place => (row.splitOn ' ')[place]?) n)

end PredictionMarket.Http.Host
