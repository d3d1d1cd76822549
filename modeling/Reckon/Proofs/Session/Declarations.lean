import Reckon.Proofs.Session.Invariant
import Reckon.Proofs.Typing.Decision

/-!
# The declarations of a session

The table of a session only grows, so the operators keep their standard signatures in it, and every
program that is parsed can be typed under it or not. Checking decides this.

* `Session.grows_afterAll`: the table of a session only grows.
* `Session.regular_afterAll`: after any calls that run sources, the table has one level, the
  standard operators and variables of the types that values are of.
* `Session.check_decides_typing`: a check succeeds exactly if there is a larger table that types the
  program, and leaves this table and these types.
-/

namespace Reckon

/-- The standard declarations hold the operators. -/
theorem operators_standard : Decl.standard.Operators where
  unary op := (get?_standard_iff _ _).2 op.mem_standardEntries
  binary op := (get?_standard_iff _ _).2 op.mem_standardEntries

namespace Session

/-- A call adds variables to the table, and takes nothing away. -/
theorem grows_answer (s : Session) (call : SourceCall) :
    Grows s.table (s.answer call).session.table := by
  cases hr : (s.answer call).result with
  | error f =>
    rw [answer_session_of_error hr]
    exact .refl _
  | ok v =>
    obtain ⟨p, -, -, -, hsession⟩ := answer_ok hr
    rw [hsession]
    exact Program.check_grows s.table p

/-- **All calls.** The table only grows. -/
theorem grows_afterAll (s : Session) (calls : List SourceCall) :
    Grows s.table (s.afterAll calls).table := by
  induction calls generalizing s with
  | nil => exact .refl _
  | cons call calls ih => exact (s.grows_answer call).trans (ih _)

/-- The table after any calls, from a new session on. -/
theorem regular_afterAll (settings : Settings) (calls : List SourceCall) :
    ((start settings).afterAll calls).table.Regular where
  toOperators := operators_standard.within ((start settings).grows_afterAll calls).within
  flat := (agree_afterAll agree_standard calls).table_flat
  data hx := ((agree_afterAll agree_standard calls).var hx).1

/-- **Checking decides typing.** Let `G` be the table after any calls that run sources, and `p` a
program that is parsed from any tokens. The check of `p` under `G` succeeds exactly if `p` is typed
by some `G'`, which declares beyond `G` the names that `p` assigns and `G` does not bind. There is
one such `G'` at most, the table after the check. The check changes nothing but the attached types
of `p`; every part of `p` gets the type that it has under `G'`, which is that of words or of truth
values. -/
theorem check_decides_typing (settings : Settings) (calls : List SourceCall) (G : Table Decl)
    (hG : G = ((start settings).afterAll calls).table) (ts : List Token) (p : Program)
    (hp : Reckon.parse ts = .ok p) :
    ((Program.check G p).result = .ok () ↔ ∃ G', p.TypedBy G G') ∧
    ∀ G', p.TypedBy G G' →
      G' = (Program.check G p).table ∧
      (Program.check G p).tree.map Expr.untyped = p.map Expr.untyped ∧
      ∀ e ∈ (Program.check G p).tree, ∀ n ∈ e.parts,
        (n.ty = .int ∨ n.ty = .bool) ∧ HasType G' n n.ty := by
  have hregular : G.Regular := hG ▸ regular_afterAll settings calls
  have hsorted := wellSorted_of_parse hp
  refine ⟨⟨fun h => ⟨_, (checksAll_of_ok h).typedBy hsorted hregular⟩, ?_⟩, fun G' h => ?_⟩
  · rintro ⟨G', h⟩
    obtain ⟨p', hc⟩ := h.checksAll hregular
    rw [hc.check_eq]
  · obtain ⟨p', hc⟩ := h.checksAll hregular
    refine ⟨by rw [hc.check_eq], Program.untyped_tree G p, fun e he n hn => ?_⟩
    rw [hc.check_eq] at he
    exact hc.parts_annotated hsorted hregular e he n hn

private def assignedOperand : Program :=
  [.binary .nowhere .unknown (.arith .add)
    (.assign .nowhere .unknown .assign (.var .nowhere .unknown "x") (.int .nowhere 1))
    (.var .nowhere .unknown "x")]

private theorem parse_assignedOperand :
    Reckon.parse [⟨.leftParen, "(", .nowhere⟩, ⟨.identifier, "x", .nowhere⟩,
        ⟨.binary .assign, "=", .nowhere⟩, ⟨.integer, "1", .nowhere⟩, ⟨.rightParen, ")", .nowhere⟩,
        ⟨.binary (.arith .add), "+", .nowhere⟩, ⟨.identifier, "x", .nowhere⟩, .eofAt .nowhere] =
      .ok assignedOperand := by
  refine parse_eq_ok_iff.2 ⟨[
    .infixed ⟨.binary (.arith .add), "+", .nowhere⟩ (.arith .add)
      (.paren ⟨.leftParen, "(", .nowhere⟩
        (.infixed ⟨.binary .assign, "=", .nowhere⟩ .assign
          (.atom ⟨.identifier, "x", .nowhere⟩ _ rfl)
          (.atom ⟨.integer, "1", .nowhere⟩ (.int .nowhere 1) rfl) rfl)
        ⟨.rightParen, ")", .nowhere⟩ rfl rfl)
      (.atom ⟨.identifier, "x", .nowhere⟩ _ rfl) rfl], [.eofAt .nowhere], ⟨?_, ?_⟩, rfl, rfl, rfl⟩
  · intro q hq
    rw [List.mem_singleton.1 hq]
    exact ⟨⟨trivial, trivial, by decide, by decide⟩, trivial, by decide, by decide⟩
  · intro q hq
    cases hq

private theorem check_assignedOperand :
    Program.check Decl.standard assignedOperand =
      ⟨.ok (), [.binary .nowhere .int (.arith .add)
        (.assign .nowhere .int .assign (.var .nowhere .int "x") (.int .nowhere 1))
        (.var .nowhere .int "x")], Decl.standard.save "x" (.var .int)⟩ := by
  have hx : Decl.standard.get? "x" = none := by decide +kernel
  have hadd : (Decl.standard.save "x" (.var .int)).binarySig (.arith .add) =
      ⟨.int, .int, .int⟩ := by
    decide +kernel
  simp [assignedOperand, Program.check, Expr.check, assignTo, hx, nameType, Table.get?_save, hadd,
    BinarySig.apply, Expr.retype]

/-- `(x = 1) + x` is typed by the standard table with a variable for words, and by no other. -/
theorem typing_of_assigned_operand :
    assignedOperand.TypedBy Decl.standard (Decl.standard.save "x" (.var .int)) ∧
      ∀ G', assignedOperand.TypedBy Decl.standard G' →
        G' = Decl.standard.save "x" (.var .int) := by
  have hdecides := check_decides_typing .default [] _ rfl _ _ parse_assignedOperand
  have htable : ∀ G', assignedOperand.TypedBy Decl.standard G' →
      G' = Decl.standard.save "x" (.var .int) :=
    fun G' h => (hdecides.2 G' h).1.trans (congrArg Checked.table check_assignedOperand)
  refine ⟨?_, htable⟩
  obtain ⟨G', h⟩ := hdecides.1.1 (congrArg Checked.result check_assignedOperand)
  exact htable G' h ▸ h

end Session

end Reckon
