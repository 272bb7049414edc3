import QuadQuery.Regex.Stretch

/-!
# Simple case folding

Characters that differ in case alone have the same simple case folding of the Unicode
standard. Nearly all of them come in pairs, a character and the one a fixed distance further
on; the rest are listed as groups.
-/

namespace QuadQuery.Regex.CaseFold

/-- Stretches of characters with the distance to their partners. -/
def pairs : List (Stretch × Nat) :=
  Stretch.tableWithDistance [
    "41-4A+32 4C-52+32 54-5A+32 C0-C4+32 C6-D6+32 D8-DE+32 DF+7615 FF+121 100-12E/2+1",
    "132-136/2+1 139-147/2+1 14A-176/2+1 179-17D/2+1 180+195 181+210 182-184/2+1 186+206",
    "187+1 189-18A+205 18B+1 18E+79 18F+202 190+203 191+1 193+205 194+207 195+97 196+211",
    "197+209 198+1 19A+163 19B+42561 19C+211 19D+213 19E+130 19F+214 1A0-1A4/2+1 1A6+218",
    "1A7+1 1A9+218 1AC+1 1AE+218 1AF+1 1B1-1B2+217 1B3-1B5/2+1 1B7+219 1B8+1 1BC+1 1BF+56",
    "1CD-1DB/2+1 1DE-1EE/2+1 1F4+1 1F8-21E/2+1 222-232/2+1 23A+10795 23B+1 23E+10792",
    "23F-240+10815 241+1 244+69 245+71 246-24E/2+1 250+10783 251+10780 252+10782 25C+42319",
    "261+42315 264+42343 265+42280 266+42308 26A+42308 26B+10743 26C+42305 271+10749",
    "27D+10727 282+42307 287+42282 29D+42261 29E+42258 370-372/2+1 376+1 37B-37D+130 37F+116",
    "386+38 388-38A+37 38C+64 38E-38F+63 390+7235 391-393/2+32 394-396/2+32 397+32",
    "39B-39D/2+32 39E-39F+32 3A4-3A5+32 3A7-3A8+32 3AA-3AB+32 3B0+7219 3CF+8 3D8-3EE/2+1",
    "3F2+7 3F7+1 3FA+1 400-40F+80 410-411+32 413-415/2+32 416-41D+32 41F-420+32 423-429+32",
    "42B-42F+32 460+1 464-480/2+1 48A-4BE/2+1 4C0+15 4C1-4CD/2+1 4D0-52E/2+1 531-556+48",
    "10A0-10C5+7264 10C7+7264 10CD+7264 10D0-10FA+3008 10FD-10FF+3008 13A0-13EF+38864",
    "13F0-13F5+8 1C89+1 1D79+35332 1D7D+3814 1D8E+35384 1E00-1E5E/2+1 1E62-1E94/2+1",
    "1EA0-1EFE/2+1 1F00-1F07+8 1F10-1F15+8 1F20-1F27+8 1F30-1F37+8 1F40-1F45+8 1F51-1F57/2+8",
    "1F60-1F67+8 1F70-1F71+74 1F72-1F75+86 1F76-1F77+100 1F78-1F79+128 1F7A-1F7B+112",
    "1F7C-1F7D+126 1F80-1F87+8 1F90-1F97+8 1FA0-1FA7+8 1FB0-1FB1+8 1FB3+9 1FC3+9 1FD0-1FD1+8",
    "1FE0-1FE1+8 1FE5+7 1FF3+9 2132+28 2160-216F+16 2183+1 24B6-24CF+26 2C00-2C2F+48 2C60+1",
    "2C67-2C6B/2+1 2C72+1 2C75+1 2C80-2CE2/2+1 2CEB-2CED/2+1 2CF2+1 A640-A648/2+1",
    "A64C-A66C/2+1 A680-A69A/2+1 A722-A72E/2+1 A732-A76E/2+1 A779-A77B/2+1 A77E-A786/2+1",
    "A78B+1 A790-A792/2+1 A794+48 A796-A7A8/2+1 A7B3+928 A7B4-A7C2/2+1 A7C7-A7C9/2+1",
    "A7CC-A7DA/2+1 A7F5+1 FB05+1 FF21-FF3A+32 10400-10427+40 104B0-104D3+40 10570-1057A+39",
    "1057C-1058A+39 1058C-10592+39 10594-10595+39 10C80-10CB2+64 10D50-10D65+32",
    "118A0-118BF+32 16E40-16E5F+32 16EA0-16EB8+27 1E900-1E921+34"]

/-- Groups of more than two characters of one folding. -/
def groups : List (List Nat) := [
  [0x4B, 0x6B, 0x212A],
  [0x53, 0x73, 0x17F],
  [0xB5, 0x39C, 0x3BC],
  [0xC5, 0xE5, 0x212B],
  [0x1C4, 0x1C5, 0x1C6],
  [0x1C7, 0x1C8, 0x1C9],
  [0x1CA, 0x1CB, 0x1CC],
  [0x1F1, 0x1F2, 0x1F3],
  [0x345, 0x399, 0x3B9, 0x1FBE],
  [0x392, 0x3B2, 0x3D0],
  [0x395, 0x3B5, 0x3F5],
  [0x398, 0x3B8, 0x3D1, 0x3F4],
  [0x39A, 0x3BA, 0x3F0],
  [0x3A0, 0x3C0, 0x3D6],
  [0x3A1, 0x3C1, 0x3F1],
  [0x3A3, 0x3C2, 0x3C3],
  [0x3A6, 0x3C6, 0x3D5],
  [0x3A9, 0x3C9, 0x2126],
  [0x412, 0x432, 0x1C80],
  [0x414, 0x434, 0x1C81],
  [0x41E, 0x43E, 0x1C82],
  [0x421, 0x441, 0x1C83],
  [0x422, 0x442, 0x1C84, 0x1C85],
  [0x42A, 0x44A, 0x1C86],
  [0x462, 0x463, 0x1C87],
  [0x1C88, 0xA64A, 0xA64B],
  [0x1E60, 0x1E61, 0x1E9B]]

/-- The code points with the same folding as `n`, apart from `n` itself. -/
def partners (n : Nat) : List Nat :=
  match groups.find? (·.contains n) with
  | some group => group.filter (· != n)
  | none =>
    pairs.filterMap fun (s, distance) =>
      if s.contains n then some (n + distance)
      else if distance ≤ n && s.contains (n - distance) then some (n - distance)
      else none

/-- The letter of ASCII that differs from the letter `n` of ASCII in case. -/
def asciiPartner? (n : Nat) : Option Nat :=
  if 0x41 ≤ n && n ≤ 0x5A then some (n + 32)
  else if 0x61 ≤ n && n ≤ 0x7A then some (n - 32)
  else none

end QuadQuery.Regex.CaseFold
