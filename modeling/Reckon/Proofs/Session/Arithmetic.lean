import Reckon.Proofs.Grammar.Arithmetic
import Reckon.Proofs.Session.Invariant
import Reckon.Proofs.Typing.Annotation

/-!
# Integer arithmetic in sessions

Running a text of the grammar of sums and products succeeds, whatever was run before and however the
text is laid out. The value is the integer that the text stands for, modulo `2 ^ 32`.

* `Denotes.eval_program`: evaluating an expression that denotes an integer.
* `eq_ofInt_of_emod_eq`: one word is congruent to an integer.
* `Session.run_arithmetic`: running a text of the grammar.
-/

namespace Reckon

open Arithmetic (Derivation Numeral)

/-- **Evaluation** of an expression that denotes an integer. -/
theorem Denotes.eval_program {e : Expr} {z : Int} (h : Denotes e z) {s : Session}
    (hs : Agree s.table s.env) : (s.eval [e]).result = .ok (.int (Int32.ofInt z)) := by
  obtain ⟨e', he⟩ := h.checks s.table hs.unarySig_eq hs.binarySig_eq
  have hcheck : (Program.check s.table [e]).result = .ok () := by
    rw [(ChecksAll.cons he (.nil _)).check_eq]
  have heval : (Program.eval s.settings.dialect s.env (Program.check s.table [e]).tree).result =
      .ok (.int (Int32.ofInt z)) := by
    rw [Program.eval_tree]
    simp only [Program.eval, Program.evalFrom, h.eval, Run.yield_andThen]
    rfl
  rw [Session.eval_of_ok hcheck heval]

/-- One word is congruent to a given integer. -/
theorem eq_ofInt_of_emod_eq {m : Int32} {z : Int}
    (h : m.toInt % Int32.size = z % Int32.size) : m = Int32.ofInt z := by
  have hm : Int32.ofInt m.toInt = m := Int32.ofInt_toInt m
  have hbmod : m.toInt.bmod Int32.size = z.bmod Int32.size := by
    rw [← Int.emod_bmod m.toInt, ← Int.emod_bmod z, h]
  rw [← hm, ← Int32.toInt_inj, Int32.toInt_ofInt, Int32.toInt_ofInt]
  exact hbmod

namespace Session

/-- **Sums and products.** Let `e` be a derivation in the grammar of sums and products, written with
any gaps between its words. After any calls that run sources, from a new session on, running this
text yields a word. It is the one word that is congruent to the value of `e` modulo `Int32.size`,
which is `2 ^ 32`. -/
theorem run_arithmetic (settings : Settings) (calls : List SourceCall) (s : Session)
    (hs : s = (start settings).afterAll calls) (e : Derivation .sum) {text : List Char}
    (htext : Spaced e.words text) (name : String) :
    ∃ n : Int32, (s.run ⟨name, text, .clean⟩).result = .ok (.int n) ∧
      n.toInt % Int32.size = e.value % Int32.size ∧
      ∀ m : Int32, m.toInt % Int32.size = e.value % Int32.size → m = n := by
  have hagree : Agree s.table s.env := hs ▸ agree_afterAll agree_standard calls
  obtain ⟨x, hparse, hx⟩ := e.parse_words
  obtain ⟨q, hq, hqx⟩ := htext.exists_program e.written e.unextendable hparse name
  have hresult : (s.eval q).result = .ok (.int (Int32.ofInt e.value)) := by
    have halike := s.eval_unlocated q
    rw [hqx] at halike
    exact (halike.ok_iff _).1 (hx.eval_program hagree)
  refine ⟨Int32.ofInt e.value, ?_, ?_, fun m hm => eq_ofInt_of_emod_eq hm⟩
  · rw [run, runWith_of_ok hq hresult]
  · rw [Int32.toInt_ofInt]
    exact Int.bmod_emod

private def seven : Numeral := ⟨['7'], by decide, by decide, by decide⟩

private def two : Numeral := ⟨['2'], by decide, by decide, by decide⟩

private def three : Numeral := ⟨['3'], by decide, by decide, by decide⟩

private def largest : Numeral :=
  ⟨['2', '1', '4', '7', '4', '8', '3', '6', '4', '7'], by decide, by decide, by decide⟩

private def wrapping : Derivation .sum :=
  .sub (.ofTerm (.ofFactor (.numeral seven)))
    (.mul (.mul (.ofFactor (.numeral largest)) (.numeral two)) (.numeral three))

/-- The products in `7 - 2147483647*2*3` wrap around. -/
theorem run_wrapping_product :
    ((start .default).run (.ofString "a" "7 - 2147483647*2*3 # wraps")).result =
      .ok (.int 13) := by
  have hblank : Gap [' '] := .blank (by decide) .nil
  have hlast : LastGap ([' '] ++ '#' :: " wraps".toList) := .comment hblank (by decide)
  have htext : Spaced wrapping.words "7 - 2147483647*2*3 # wraps".toList :=
    .word .nil (.word hblank (.word hblank (.word .nil (.word .nil (.word .nil (.word .nil
      (.last hlast)))))))
  obtain ⟨n, hn, -, hunique⟩ := run_arithmetic .default [] _ rfl wrapping htext "a"
  have hthirteen : (13 : Int32) = n := hunique 13 (by decide)
  rw [hthirteen]
  exact hn

end Session

end Reckon
