import Backflow.Unicode.Table

namespace Backflow.Unicode

/-- Distances between two characters that are equal up to case, each with the lower ones of such
pairs. -/
def caseDistances : List (Nat × Definition) := [
  (0x1, .table [
    "100-12E/2 132-136/2 139-147/2 14A-176/2 179-17D/2 182 184 187 18B 191 198 1A0-1A4/2 1A7 1AC",
    "1AF 1B3 1B5 1B8 1BC 1C4-1C5 1C7-1C8 1CA-1CB 1CD-1DB/2 1DE-1EE/2 1F1-1F2 1F4 1F8-21E/2",
    "222-232/2 23B 241 246-24E/2 370 372 376 3C2 3D8-3EE/2 3F7 3FA 460-480/2 48A-4BE/2 4C1-4CD/2",
    "4D0-52E/2 1C84 1C89 1E00-1E94/2 1EA0-1EFE/2 2183 2C60 2C67-2C6B/2 2C72 2C75 2C80-2CE2/2 2CEB",
    "2CED 2CF2 A640-A66C/2 A680-A69A/2 A722-A72E/2 A732-A76E/2 A779 A77B A77E-A786/2 A78B A790",
    "A792 A796-A7A8/2 A7B4-A7C2/2 A7C7 A7C9 A7CC A7D0 A7D6-A7DA/2 A7F5 FB05"]),
  (0x2, .table ["1C4-1CA/3 1F1"]), (0x7, .table ["3F2 1FE5"]),
  (0x8, .table [
    "3CF 13F0-13F5 1F00-1F07 1F10-1F15 1F20-1F27 1F30-1F37 1F40-1F45 1F51-1F57/2 1F60-1F67",
    "1F80-1F87 1F90-1F97 1FA0-1FA7 1FB0-1FB1 1FD0-1FD1 1FE0-1FE1"]),
  (0x9, .table ["1FB3 1FC3 1FF3"]), (0xf, .table ["3C6 4C0"]), (0x10, .table ["2160-216F"]),
  (0x16, .table ["3C0"]), (0x19, .table ["3B8"]), (0x1a, .table ["24B6-24CF"]),
  (0x1c, .table ["2132"]), (0x1e, .table ["3B2"]), (0x1f, .table ["3A3"]),
  (0x20, .table [
    "41-5A C0-D6 D8-DE 391-3A1 3A3-3AB 410-42F FF21-FF3A 10D50-10D65 118A0-118BF 16E40-16E5F"]),
  (0x22, .table ["1E900-1E921"]), (0x23, .table ["3D1"]), (0x25, .table ["388-38A"]),
  (0x26, .table ["386"]), (0x27, .table ["10570-1057A 1057C-1058A 1058C-10592 10594-10595"]),
  (0x28, .table ["10400-10427 104B0-104D3"]), (0x2f, .table ["3A6"]),
  (0x30, .table ["3C1 531-556 2C00-2C2F A794"]), (0x36, .table ["3A0 3BA"]), (0x38, .table ["1BF"]),
  (0x39, .table ["398"]), (0x3a, .table ["1E61"]), (0x3b, .table ["1E60"]), (0x3c, .table ["3B8"]),
  (0x3e, .table ["392"]), (0x3f, .table ["38E-38F"]), (0x40, .table ["38C 3B5 10C80-10CB2"]),
  (0x45, .table ["244"]), (0x47, .table ["245"]), (0x4a, .table ["1F70-1F71"]),
  (0x4f, .table ["18E"]), (0x50, .table ["3A1 400-40F"]), (0x54, .table ["345"]),
  (0x56, .table ["39A 1F72-1F75"]), (0x5c, .table ["398"]), (0x60, .table ["395"]),
  (0x61, .table ["195"]), (0x64, .table ["1F76-1F77"]), (0x70, .table ["1F7A-1F7B"]),
  (0x74, .table ["345 37F"]), (0x79, .table ["FF"]), (0x7e, .table ["1F7C-1F7D"]),
  (0x80, .table ["1F78-1F79"]), (0x82, .table ["19E 37B-37D"]), (0xa3, .table ["19A"]),
  (0xc3, .table ["180"]), (0xca, .table ["18F"]), (0xcb, .table ["190"]),
  (0xcd, .table ["189-18A 193"]), (0xce, .table ["186"]), (0xcf, .table ["194"]),
  (0xd1, .table ["197"]), (0xd2, .table ["181"]), (0xd3, .table ["196 19C"]),
  (0xd5, .table ["19D"]), (0xd6, .table ["19F"]), (0xd9, .table ["1B1-1B2"]),
  (0xda, .table ["1A6 1A9 1AE"]), (0xdb, .table ["1B7"]), (0x10c, .table ["73"]),
  (0x12c, .table ["53"]), (0x2e7, .table ["B5"]), (0x307, .table ["B5"]), (0x3a0, .table ["A7B3"]),
  (0xbc0, .table ["10D0-10FA 10FD-10FF"]), (0xee6, .table ["1D7D"]), (0x1824, .table ["463"]),
  (0x1825, .table ["462"]), (0x183c, .table ["44A"]), (0x1842, .table ["441-442"]),
  (0x1843, .table ["442"]), (0x1844, .table ["43E"]), (0x184d, .table ["434"]),
  (0x184e, .table ["432"]), (0x185c, .table ["42A"]), (0x1862, .table ["421-422"]),
  (0x1863, .table ["422"]), (0x1864, .table ["41E"]), (0x186d, .table ["414"]),
  (0x186e, .table ["412"]), (0x1c05, .table ["3B9"]), (0x1c25, .table ["399"]),
  (0x1c33, .table ["3B0"]), (0x1c43, .table ["390"]), (0x1c60, .table ["10A0-10C5 10C7 10CD"]),
  (0x1c79, .table ["345"]), (0x1d5d, .table ["3C9"]), (0x1d7d, .table ["3A9"]),
  (0x1dbf, .table ["DF"]), (0x2046, .table ["E5"]), (0x2066, .table ["C5"]),
  (0x20bf, .table ["6B"]), (0x20df, .table ["4B"]), (0x29e7, .table ["27D"]),
  (0x29f7, .table ["26B"]), (0x29fd, .table ["271"]), (0x2a1c, .table ["251"]),
  (0x2a1e, .table ["252"]), (0x2a1f, .table ["250"]), (0x2a28, .table ["23E"]),
  (0x2a2b, .table ["23A"]), (0x2a3f, .table ["23F-240"]), (0x89c2, .table ["1C88"]),
  (0x89c3, .table ["1C88"]), (0x8a04, .table ["1D79"]), (0x8a38, .table ["1D8E"]),
  (0x97d0, .table ["13A0-13EF"]), (0xa512, .table ["29E"]), (0xa515, .table ["29D"]),
  (0xa528, .table ["265"]), (0xa52a, .table ["287"]), (0xa541, .table ["26C"]),
  (0xa543, .table ["282"]), (0xa544, .table ["266 26A"]), (0xa54b, .table ["261"]),
  (0xa54f, .table ["25C"]), (0xa567, .table ["264"]), (0xa641, .table ["19B"])]

def Range.codes (r : Range) : List Nat := (List.range (r.last + 1 - r.first)).map (r.first + ·)

/-- All ordered pairs of codes of characters that are equal up to case, in order of the first. -/
def casePairs : List (Nat × Nat) :=
  let both (e : Nat × Definition) : List (Nat × Nat) :=
    (e.2.members.ranges.flatMap Range.codes).flatMap fun n => [(n, n + e.1), (n + e.1, n)]
  (caseDistances.flatMap both).mergeSort fun p q => p.1 ≤ q.1

/-- The second codes of the pairs whose first lies in the ranges; both lists are in order. -/
def partners : List (Nat × Nat) → List Range → List Nat
  | [], _ => []
  | _ :: _, [] => []
  | p :: pairs, r :: ranges =>
    if p.1 < r.first then partners pairs (r :: ranges)
    else if r.last < p.1 then partners (p :: pairs) ranges
    else p.2 :: partners pairs (r :: ranges)
termination_by pairs ranges => pairs.length + ranges.length

/-- Adds the characters that are equal up to case to one of the set. -/
def CharSet.foldCase (a : CharSet) : CharSet :=
  a.union (.ofRanges ((partners casePairs a.ranges).map fun n => ⟨n, n⟩))

/-- The same for the letters of ASCII only. -/
def CharSet.foldAscii (a : CharSet) : CharSet :=
  let swapped := partners (casePairs.filter fun p => p.1 < 0x80 && p.2 < 0x80) a.ranges
  a.union (.ofRanges (swapped.map fun n => ⟨n, n⟩))

end Backflow.Unicode
