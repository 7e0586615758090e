/-
# Network addresses of eight groups

The addresses that stand in square brackets: eight groups of hexadecimal digits
with colons between them, one run of zeros left out at a double colon, and the
last two groups perhaps written as four decimal numbers. The written form leaves
out the first of the longest runs of at least two zeros.
-/

import MetricCatalog.Text.Digits

namespace MetricCatalog

namespace Address

open Text

/-- The groups before and behind a double colon, if there is one. -/
structure Groups where
  /-- The groups that have been read. -/
  groups : List Nat
  /-- The number of groups before the double colon. -/
  gap : Option Nat
  deriving Repr

/-- A decimal number below 256 without leading zeros, and the text behind it. -/
def byte? (text : List Char) : Option (Nat × List Char) :=
  let digits := text.takeWhile isDigit
  let value := decimalValue digits
  if digits.isEmpty || (digits.head? = some '0' && digits.length ≠ 1) || 255 < value then none
  else some (value, text.dropWhile isDigit)

/-- Four decimal numbers with points between them, as two groups. -/
def dotted? (text : List Char) : Option (List Nat) := do
  let (a, text) ← byte? text
  let '.' :: text := text | none
  let (b, text) ← byte? text
  let '.' :: text := text | none
  let (c, text) ← byte? text
  let '.' :: text := text | none
  let (d, text) ← byte? text
  guard text.isEmpty
  some [a * 256 + b, c * 256 + d]

/-- Reads groups up to the end of the text. The fuel bounds the number of groups and gaps. -/
def readGroups : Nat → Groups → List Char → Option Groups
  | _, state, [] => some state
  | 0, _, _ => none
  | fuel + 1, state, text =>
      let room := 8 - state.groups.length - (if state.gap.isSome then 1 else 0)
      if room = 0 then none
      else
        match text with
        | ':' :: rest =>
            if state.gap.isSome then none
            else readGroups fuel { state with gap := some state.groups.length } rest
        | text =>
            let digits := (text.take 4).takeWhile isHexDigit
            let value := appendDigits 16 0 (digits.filterMap hexValue?)
            match text.drop digits.length with
            | [] => some { state with groups := state.groups ++ [value] }
            | '.' :: _ =>
                if digits.isEmpty || room < 2 then none
                else (dotted? text).map fun pair =>
                  { state with groups := state.groups ++ pair }
            | ':' :: rest =>
                if rest.isEmpty then none
                else readGroups fuel { state with groups := state.groups ++ [value] } rest
            | _ => none

/-- The eight groups of an address. -/
def parse? (text : List Char) : Option (List Nat) := do
  let state ←
    match text with
    | ':' :: ':' :: rest => readGroups 20 ⟨[], some 0⟩ rest
    | ':' :: _ | [] | [_] => none
    | _ => readGroups 20 ⟨[], none⟩ text
  match state.gap with
  | none => if state.groups.length = 8 then some state.groups else none
  | some gap =>
      let zeros := List.replicate (8 - state.groups.length) 0
      some (state.groups.take gap ++ zeros ++ state.groups.drop gap)

/-- The length of the run of zeros a list starts with. -/
def zeroRun (groups : List Nat) : Nat := (groups.takeWhile (· = 0)).length

/-- The position and the length of the first of the longest runs of zeros. -/
def longestRun : Nat → List Nat → Nat × Nat
  | _, [] => (0, 0)
  | index, group :: rest =>
      let here := zeroRun (group :: rest)
      let later := longestRun (index + 1) rest
      if later.2 ≤ here then (index, here) else later

/-- Groups with colons between them. -/
def joinGroups (groups : List Nat) : List Char :=
  [':'].intercalate (groups.map (Nat.toDigits 16))

/-- The written form of eight groups. -/
def format (groups : List Nat) : List Char :=
  let (start, length) := longestRun 0 groups
  if length < 2 then joinGroups groups
  else joinGroups (groups.take start) ++ [':', ':'] ++ joinGroups (groups.drop (start + length))

end Address

end MetricCatalog
