import Reckon.Proofs.Session.Invariant
import Reckon.Proofs.Typing.Definite

/-!
# Sessions without `unit`

As long as no program prints and no compound assignment plainly assigns its own target on the right,
a session has a value of exactly the declared type for every variable, and every program with an
expression yields a value of exactly its type.

* `Session.definite_answer`: one call.
* `Session.definite_afterAll`: any calls, from a new session on.
-/

namespace Reckon

/-- No name is a variable from the start. -/
theorem definite_standard : Definite Decl.standard Env.standard := by
  intro x ty hx
  have hmem := mem_of_mem_standardEntries ((get?_standard_iff x _).1 hx) rfl
  simp at hmem

theorem Value.ne_unit_of_tag? {v : Value} {ty : Ty} (h : v.tag? = some ty) : v ≠ .unit := by
  rintro rfl
  cases h

namespace Session

/-- **One call.** A call whose program meets the conditions keeps all values definite, and its value
is of exactly the type of the last expression. -/
theorem definite_answer {s : Session} {call : SourceCall} (ha : Agree s.table s.env)
    (hdef : Definite s.table s.env)
    (hplain : ∀ p, call.source.program = .ok p → ∀ e ∈ p, e.Plain) :
    Definite (s.answer call).session.table (s.answer call).session.env ∧
      ∀ p v, call.source.program = .ok p → p ≠ [] → (s.answer call).result = .ok v →
        ∃ e, (Program.check s.table p).tree.getLast? = some e ∧ v.tag? = some e.ty := by
  cases hr : (s.answer call).result with
  | error f =>
    rw [answer_session_of_error hr]
    exact ⟨hdef, fun p v _ _ hv => by cases hv⟩
  | ok w =>
    obtain ⟨p, hp, hcheck, hrun, hsession⟩ := answer_ok hr
    obtain ⟨hdef', hlast⟩ :=
      Program.definite (Source.wellSorted_of_program hp) (hplain p hp) hcheck ha hdef hrun
    rw [hsession]
    refine ⟨hdef', fun q v hq hne hv => ?_⟩
    rw [hp] at hq
    cases hq
    cases hv
    exact hlast hne

/-- **All calls.** -/
theorem definite_of_calls {s : Session} (ha : Agree s.table s.env) (hdef : Definite s.table s.env)
    (calls : List SourceCall)
    (hplain : ∀ call ∈ calls, ∀ p, call.source.program = .ok p → ∀ e ∈ p, e.Plain) :
    Definite (s.afterAll calls).table (s.afterAll calls).env := by
  induction calls generalizing s with
  | nil => exact hdef
  | cons call calls ih =>
    have hdef' := (definite_answer ha hdef (hplain call List.mem_cons_self)).1
    exact ih (agree_answer ha call).1 hdef' fun c hc => hplain c (List.mem_cons_of_mem _ hc)

/-- **Definite values after any calls.** Let no program of the calls so far print, nor plainly
assign the target of a compound assignment inside its right side. Then every variable has a type of
values and a value of exactly this type, not `unit`; and the value of a further call with such a
program, if it succeeds and the program has an expression, is not `unit` either but of exactly the
type that is attached to the last expression. -/
theorem definite_afterAll (settings : Settings) (calls : List SourceCall)
    (hplain : ∀ call ∈ calls, ∀ p, call.source.program = .ok p →
      ∀ e ∈ p, e.PrintFree ∧ e.KeepsTargets)
    (s : Session) (hs : s = (start settings).afterAll calls) :
    (∀ x ty, s.table.get? x = some (.var ty) →
      (ty = .int ∨ ty = .bool) ∧ ∃ v, s.env.get? x = some v ∧ v ≠ .unit ∧ v.tag? = some ty) ∧
    ∀ call p v, call.source.program = .ok p → (∀ e ∈ p, e.PrintFree ∧ e.KeepsTargets) → p ≠ [] →
      (s.answer call).result = .ok v →
        v ≠ .unit ∧ ∃ e, (Program.check s.table p).tree.getLast? = some e ∧ v.tag? = some e.ty := by
  have hagree : Agree s.table s.env := hs ▸ agree_afterAll agree_standard calls
  have hdef : Definite s.table s.env := by
    rw [hs]
    refine definite_of_calls agree_standard definite_standard calls fun call hcall p hp e he => ?_
    obtain ⟨hprint, hkeeps⟩ := hplain call hcall p hp e he
    exact ⟨hprint, hkeeps⟩
  refine ⟨fun x ty hx => ⟨(hagree.var hx).1, ?_⟩, fun call p v hp hplain' hne hv => ?_⟩
  · obtain ⟨v, hv, htag⟩ := hdef x ty hx
    exact ⟨v, hv, Value.ne_unit_of_tag? htag, htag⟩
  · have hcall : ∀ q, call.source.program = .ok q → ∀ e ∈ q, e.Plain := by
      intro q hq e he
      rw [hp] at hq
      cases hq
      exact ⟨(hplain' e he).1, (hplain' e he).2⟩
    obtain ⟨e, he, htag⟩ := (definite_answer hagree hdef hcall).2 p v hp hne hv
    exact ⟨Value.ne_unit_of_tag? htag, e, he, htag⟩

private def addToItself : Program :=
  [.assign ⟨"a", 1, 3⟩ .unknown .assign (.var ⟨"a", 1, 1⟩ .unknown "x") (.int ⟨"a", 1, 5⟩ 3),
    .assign ⟨"a", 1, 9⟩ .unknown (.arithAssign .add) (.var ⟨"a", 1, 7⟩ .unknown "x")
      (.var ⟨"a", 1, 12⟩ .unknown "x")]

private theorem program_addToItself :
    (Source.ofString "a" "x = 3 x += x").program = .ok addToItself := by
  have hscan : (Source.ofString "a" "x = 3 x += x").scan =
      .ok [⟨.identifier, "x", ⟨"a", 1, 1⟩⟩, ⟨.binary .assign, "=", ⟨"a", 1, 3⟩⟩,
        ⟨.integer, "3", ⟨"a", 1, 5⟩⟩, ⟨.identifier, "x", ⟨"a", 1, 7⟩⟩,
        ⟨.binary (.arithAssign .add), "+=", ⟨"a", 1, 9⟩⟩, ⟨.identifier, "x", ⟨"a", 1, 12⟩⟩,
        .eofAt ⟨"a", 1, 13⟩] := by
    iterate 6 refine Cursor.scan_cons rfl (by decide) ?_
    exact Cursor.scan_of_eof rfl rfl
  refine Source.program_eq_ok_iff.2 ⟨_, hscan, parse_eq_ok_iff.2 ⟨[
    .infixed _ .assign (.atom ⟨.identifier, "x", ⟨"a", 1, 1⟩⟩ _ rfl)
      (.atom ⟨.integer, "3", ⟨"a", 1, 5⟩⟩ (.int ⟨"a", 1, 5⟩ 3) rfl) rfl,
    .infixed _ (.arithAssign .add) (.atom ⟨.identifier, "x", ⟨"a", 1, 7⟩⟩ _ rfl)
      (.atom ⟨.identifier, "x", ⟨"a", 1, 12⟩⟩ _ rfl) rfl], [.eofAt _],
    ⟨?_, ?_⟩, rfl, rfl, rfl⟩⟩
  · intro p hp
    simp only [List.mem_cons, List.not_mem_nil, or_false] at hp
    rcases hp with rfl | rfl <;> exact ⟨trivial, trivial, by decide, by decide⟩
  · intro p hp
    rw [List.tail_cons, List.mem_singleton] at hp
    rw [hp]
    decide

private theorem plain_addToItself : ∀ e ∈ addToItself, e.PrintFree ∧ e.KeepsTargets := by
  intro e he
  refine ⟨?_, ?_⟩ <;> simp only [addToItself, List.mem_cons, List.not_mem_nil, or_false] at he
  · intro l a h
    rcases he with rfl | rfl <;> simp [Expr.parts] at h
  · intro l ty op l' ty' x v h hop
    rcases he with rfl | rfl
    · simp only [Expr.parts, List.cons_append, List.nil_append, List.mem_cons, Expr.assign.injEq,
        reduceCtorEq, List.not_mem_nil, or_false] at h
      exact absurd h.2.2.1 hop
    · simp only [Expr.parts, List.cons_append, List.nil_append, List.mem_cons, Expr.assign.injEq,
        reduceCtorEq, List.not_mem_nil, or_false] at h
      rw [h.2.2.2.2]
      simp

private theorem eval_addToItself :
    ((start .default).eval addToItself).result = .ok (.int 6) ∧
      ((start .default).eval addToItself).session.table = Decl.standard.save "x" (.var .int) := by
  have hx : Decl.standard.get? "x" = none := by decide +kernel
  have hadd : (Decl.standard.save "x" (.var .int)).binarySig (.arithAssign .add) =
      ⟨.int, .int, .int⟩ := by
    decide +kernel
  have hthree : Env.value (Env.standard.save "x" (.int 3)) "x" = .int 3 :=
    Env.value_eq_of_get? (Table.get?_save _ _ _ _)
  have hsix : BinaryOp.apply Settings.default.dialect
      (Settings.default.dialect.updateOp (.arithAssign .add)) (.int 3) (.int 3) =
        .ok (.int 6) := rfl
  simp [addToItself, eval, start, Program.check, Expr.check, assignTo, hx, Program.eval,
    Program.evalFrom, Expr.eval, Expr.retype, Run.andThen, Run.yield, Run.located, Dialect.update,
    Table.get?_save, hadd, BinarySig.apply, nameType, hthree, hsix]

/-- After `x = 3 x += x`, whose value is no `unit`, neither is that of `x`. -/
theorem definite_after_compound :
    (∃ v, ((start .default).afterAll [.run (.ofString "a" "x = 3 x += x")]).env.get? "x" = some v ∧
      v ≠ .unit ∧ v.tag? = some .int) ∧
    ∃ v, ((start .default).answer (.run (.ofString "a" "x = 3 x += x"))).result = .ok v ∧
      v ≠ .unit := by
  have hrun : ((start .default).answer (.run (.ofString "a" "x = 3 x += x"))).result =
        .ok (.int 6) ∧
      ((start .default).afterAll [.run (.ofString "a" "x = 3 x += x")]).table =
        Decl.standard.save "x" (.var .int) := by
    obtain ⟨hresult, htable⟩ := eval_addToItself
    have heq : (start .default).runWith false _ = _ := runWith_of_ok program_addToItself hresult
    exact ⟨congrArg Reply.result heq, (congrArg (·.session.table) heq).trans htable⟩
  refine ⟨?_, .int 6, hrun.1, ?_⟩
  · refine ((definite_afterAll .default _ ?_ _ rfl).1 "x" .int ?_).2
    · intro call hcall p hp
      rw [List.mem_singleton.1 hcall] at hp
      cases program_addToItself.symm.trans hp
      exact plain_addToItself
    · rw [hrun.2, Table.get?_save, if_pos rfl]
  · exact ((definite_afterAll .default [] (by simp) _ rfl).2
      (.run (.ofString "a" "x = 3 x += x")) _ _ program_addToItself plain_addToItself
      (List.cons_ne_nil _ _) hrun.1).1

end Session

end Reckon
