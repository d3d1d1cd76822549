/-!
# The byte order of texts

Texts are ordered by the bytes of their UTF-8 form, byte by byte, a text before its extensions.

* `precedes_irrefl`, `precedes_trans`, `precedes_trichotomy`: it is a strict linear order.
-/

namespace Reckon.Text

/-- The UTF-8 form of a text. -/
def utf8 (s : String) : List UInt8 := s.toByteArray.data.toList

/-- `s` comes before `t` in byte order. -/
def precedes (s t : String) : Prop := utf8 s < utf8 t

instance (s t : String) : Decidable (precedes s t) :=
  inferInstanceAs (Decidable (utf8 s < utf8 t))

theorem utf8_inj {s t : String} : utf8 s = utf8 t ↔ s = t := by
  refine ⟨fun h => ?_, fun h => h ▸ rfl⟩
  exact String.toByteArray_inj.1 (ByteArray.ext (Array.toList_inj.1 h))

theorem precedes_irrefl (s : String) : ¬ precedes s s :=
  List.lex_irrefl UInt8.lt_irrefl (utf8 s)

theorem precedes_trans {s t u : String} (h : precedes s t) (h' : precedes t u) : precedes s u :=
  List.lex_trans UInt8.lt_trans h h'

private theorem bytes_trichotomy (a b : List UInt8) : a < b ∨ a = b ∨ b < a := by
  induction a generalizing b with
  | nil =>
    cases b with
    | nil => exact .inr (.inl rfl)
    | cons y ys => exact .inl (List.nil_lt_cons y ys)
  | cons x xs ih =>
    cases b with
    | nil => exact .inr (.inr (List.nil_lt_cons x xs))
    | cons y ys =>
      simp only [List.cons_lt_cons_iff]
      by_cases hxy : x = y
      · subst hxy
        rcases ih ys with h | rfl | h
        · exact .inl (.inr ⟨rfl, h⟩)
        · exact .inr (.inl rfl)
        · exact .inr (.inr (.inr ⟨rfl, h⟩))
      · rcases UInt8.lt_or_lt_of_ne hxy with h | h
        · exact .inl (.inl h)
        · exact .inr (.inr (.inl h))

theorem precedes_trichotomy (s t : String) : precedes s t ∨ s = t ∨ precedes t s := by
  rcases bytes_trichotomy (utf8 s) (utf8 t) with h | h | h
  · exact .inl h
  · exact .inr (.inl (utf8_inj.1 h))
  · exact .inr (.inr h)

end Reckon.Text
