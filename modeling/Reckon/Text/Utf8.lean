/-!
# Reading bytes as characters

`decode` reads bytes as UTF-8. A byte that starts no well-formed sequence is read as one replacement
character, and reading goes on with the byte after it, so every byte sequence has a text. Overlong
forms, surrogates and values past the last code point are not well formed.
-/

namespace Reckon.Text.Utf8

/-- What stands for a byte that starts no well-formed sequence. -/
def replacement : Char := '�'

/-- The first byte of a sequence: its share of the value, the number of bytes that follow it, and
the least value that needs so many. -/
structure Lead where
  value : Nat
  following : Nat
  least : Nat

/-- Reads a byte as the first one of a sequence. -/
def lead? (b : UInt8) : Option Lead :=
  let n := b.toNat
  if n < 0x80 then some ⟨n, 0, 0⟩
  else if n < 0xc0 then none
  else if n < 0xe0 then some ⟨n - 0xc0, 1, 0x80⟩
  else if n < 0xf0 then some ⟨n - 0xe0, 2, 0x800⟩
  else if n < 0xf8 then some ⟨n - 0xf0, 3, 0x10000⟩
  else none

/-- Extends `value` by `count` continuation bytes. -/
def continued? (value : Nat) : Nat → List UInt8 → Option Nat
  | 0, _ => some value
  | _ + 1, [] => none
  | count + 1, b :: bs =>
    if 0x80 ≤ b.toNat ∧ b.toNat < 0xc0 then continued? (value * 64 + (b.toNat - 0x80)) count bs
    else none

/-- The character that the byte `b` starts, given the bytes after it, and how many of those it
takes. -/
def sequence? (b : UInt8) (bs : List UInt8) : Option (Char × Nat) := do
  let l ← lead? b
  let n ← continued? l.value l.following bs
  if l.least ≤ n ∧ n.isValidChar then some (Char.ofNat n, l.following) else none

/-- The text of a byte sequence. -/
def decode : List UInt8 → List Char
  | [] => []
  | b :: bs =>
    match sequence? b bs with
    | some (c, k) => c :: decode (bs.drop k)
    | none => replacement :: decode bs
termination_by bs => bs.length
decreasing_by all_goals simp [List.length_drop]; try omega

end Reckon.Text.Utf8
