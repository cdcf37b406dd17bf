import Mathlib.Tactic.Common

namespace Yvex

/-! # Texts and digests

Owners name what they seal by a SHA-256 digest in hexadecimal. The digest itself is left
uninterpreted. -/

/-- Texts with a terminating zero: identities and plan names. -/
abbrev Text := List Char

def isHexDigit (character : Char) : Bool :=
  character.isDigit || ('a' ≤ character && character ≤ 'f') || ('A' ≤ character && character ≤ 'F')

def hexValid (text : Text) : Bool := text.length == 64 && text.all isHexDigit

inductive HashItem where
  | text (text : Text)
  | u64 (value : Nat)

class Sha256 where
  hex : List HashItem → Text
  hex_valid : ∀ items, hexValid (hex items)

@[reducible] def plainDigest : Sha256 where
  hex _ := List.replicate 64 '0'
  hex_valid _ := by decide

def HashItem.label (label : String) : HashItem := .text label.toList

def flag (value : Bool) : Nat := if value then 1 else 0

end Yvex
