/-
# Identifiers

A 128-bit identifier, written as 32 lower-case hexadecimal digits in groups of
8, 4, 4, 4 and 12. The reader also takes the digits without hyphens, in braces,
or after `urn:uuid:`, in either case.
-/

import MetricCatalog.Text.Digits
import MetricCatalog.KeyMap

namespace MetricCatalog

/-- A 128-bit identifier. -/
structure Uuid where
  /-- The identifier as a number. -/
  value : Nat
  /-- The number has at most 128 bits. -/
  value_lt : value < Nat.pow 2 128
  deriving DecidableEq, Repr

namespace Uuid

instance : Inhabited Uuid := ⟨⟨0, by decide⟩⟩

/-- The identifier with the low 128 bits of a number. -/
def ofNat (n : Nat) : Uuid := ⟨n % Nat.pow 2 128, Nat.mod_lt _ (by decide)⟩

/-- A random identifier from 128 random bits: the version is 4 and the variant `10`. -/
def ofRandom (n : Nat) : Uuid :=
  let high := n / Nat.pow 2 80 % Nat.pow 2 48
  let middle := n / Nat.pow 2 64 % Nat.pow 2 12
  let low := n % Nat.pow 2 62
  ofNat (high * Nat.pow 2 80 + (4 * Nat.pow 2 12 + middle) * Nat.pow 2 64 + Nat.pow 2 63 + low)

/-- The 32 digits. -/
def digits (id : Uuid) : List Char := Text.paddedHexDigits 32 id.value

/-- The digits in groups. -/
def grouped (digits : List Char) : List Char :=
  digits.take 8 ++ '-' :: (digits.drop 8).take 4 ++ '-' :: (digits.drop 12).take 4 ++
    '-' :: (digits.drop 16).take 4 ++ '-' :: digits.drop 20

/-- The written form of an identifier. -/
def format (id : Uuid) : String := String.ofList (grouped id.digits)

instance : ToString Uuid := ⟨format⟩

/-- The identifier that 32 digits write. -/
def ofDigits? (text : List Char) : Option Uuid :=
  if text.length = 32 then (Text.hexadecimal? text).map ofNat else none

/-- The identifier that grouped digits write. -/
def ofGroups? (text : List Char) : Option Uuid :=
  let plain := text.filter (· ≠ '-')
  if grouped plain = text then ofDigits? plain else none

/-- The identifier a text writes. -/
def parse? (text : String) : Option Uuid :=
  let cs := text.toList
  match cs with
  | '{' :: rest =>
      if rest.getLast? = some '}' then ofGroups? rest.dropLast else none
  | _ =>
      if cs.take 9 = "urn:uuid:".toList then ofGroups? (cs.drop 9)
      else if cs.length = 32 then ofDigits? cs
      else ofGroups? cs

end Uuid

/-- Identifiers are ordered as numbers. -/
instance : KeyOrder Uuid where
  before first second := before first.value second.value
  before_irrefl id := KeyOrder.before_irrefl id.value
  before_trans hfirst hsecond := KeyOrder.before_trans hfirst hsecond
  eq_of_not_before {first second} hfirst hsecond := by
    have hvalue := KeyOrder.eq_of_not_before hfirst hsecond
    cases first
    cases second
    cases hvalue
    rfl

end MetricCatalog
