import Reckon.Proofs.Grammar.Tree
import Reckon.Proofs.Session.Outcome
import Reckon.Proofs.Typing.Soundness

/-!
# The types of a session

A session starts with a table and an environment that agree, and every run keeps it so: one that
succeeds by soundness, one that fails because it leaves nothing behind.

* `agree_standard`: the table and the environment of a new session agree.
* `Session.agree_afterAll`: those of a session agree after any calls.
* `Session.typed_afterAll`: which names have a value after any calls, what the values of the
  variables are, and what the value of the next call is.
-/

namespace Reckon

/-! ## The start -/

namespace Table

variable {α : Type}

theorem saveOuter_eq_save {t : Table α} (h : t.depth = 0) (x : String) (v : α) :
    t.saveOuter x v = t.save x v := by
  obtain ⟨inner, outer⟩ := t
  cases inner with
  | nil => rfl
  | cons l rest => simp [depth] at h

/-- A table with one level that is filled with entries of different names binds these entries. -/
theorem get?_foldl_saveOuter (es : List (String × α)) {t : Table α} (ht : t.depth = 0)
    (hes : (es.map Prod.fst).Nodup) (hnew : ∀ e ∈ es, t.get? e.1 = none) (x : String) (v : α) :
    (es.foldl (fun t e => t.saveOuter e.1 e.2) t).get? x = some v ↔
      (x, v) ∈ es ∨ t.get? x = some v := by
  induction es generalizing t with
  | nil => simp
  | cons e es ih =>
    obtain ⟨y, w⟩ := e
    rw [List.map_cons, List.nodup_cons] at hes
    have hy := hnew (y, w) List.mem_cons_self
    have hnew' : ∀ e ∈ es, (t.save y w).get? e.1 = none := by
      intro e he
      have hne : e.1 ≠ y := by
        rintro rfl
        exact hes.1 (List.mem_map.2 ⟨e, he, rfl⟩)
      rw [get?_save, if_neg hne]
      exact hnew e (List.mem_cons_of_mem _ he)
    rw [List.foldl_cons, saveOuter_eq_save ht, ih ((depth_save t y w).trans ht) hes.2 hnew',
      get?_save, List.mem_cons, Prod.mk.injEq]
    by_cases hx : x = y
    · subst hx
      simp [hy, or_comm, eq_comm]
    · simp [hx]

/-- The same, where nothing is bound before. -/
theorem get?_foldl_saveOuter_empty {es : List (String × α)} (hes : (es.map Prod.fst).Nodup)
    (x : String) (v : α) :
    (es.foldl (fun t e => t.saveOuter e.1 e.2) empty).get? x = some v ↔ (x, v) ∈ es := by
  refine (get?_foldl_saveOuter es rfl hes (fun _ _ => rfl) x v).trans ⟨fun h => ?_, .inl⟩
  exact h.resolve_right fun hempty => by cases hempty

theorem depth_foldl_saveOuter (es : List (String × α)) (t : Table α) :
    (es.foldl (fun t e => t.saveOuter e.1 e.2) t).depth = t.depth := by
  induction es generalizing t with
  | nil => rfl
  | cons e es ih => exact ih _

end Table

private theorem standardEntries_nodup : (Decl.standardEntries.map Prod.fst).Nodup := by
  decide +kernel

/-- The standard declarations are the standard entries. -/
theorem get?_standard_iff (x : String) (d : Decl) :
    Decl.standard.get? x = some d ↔ (x, d) ∈ Decl.standardEntries :=
  Table.get?_foldl_saveOuter_empty standardEntries_nodup x d

/-- The standard bindings are the two truth values. -/
theorem Env.get?_standard_iff (x : String) (v : Value) :
    Env.standard.get? x = some v ↔ (x, v) ∈ [("true", .bool true), ("false", .bool false)] := by
  have hnodup : ([("true", Value.bool true), ("false", .bool false)].map Prod.fst).Nodup := by
    decide
  exact Table.get?_foldl_saveOuter_empty hnodup x v

theorem UnaryOp.mem_standardEntries (op : UnaryOp) :
    (op.name, .unary op.sig) ∈ Decl.standardEntries :=
  List.mem_append_left _ (List.mem_append_right _ (List.mem_map_of_mem op.mem_all))

theorem BinaryOp.mem_standardEntries (op : BinaryOp) :
    (op.name, .binary op.sig) ∈ Decl.standardEntries :=
  List.mem_append_right _ (List.mem_map_of_mem op.mem_all)

/-- The names that are declared with a value from the start are the two truth values. -/
theorem mem_of_mem_standardEntries {x : String} {d : Decl} (h : (x, d) ∈ Decl.standardEntries)
    (hd : d.isData = true) : (x, d) ∈ [("true", .const true), ("false", .const false)] := by
  rcases List.mem_append.1 h with h | h
  · rcases List.mem_append.1 h with h | h
    · exact h
    · obtain ⟨op, -, heq⟩ := List.mem_map.1 h
      cases heq
      cases hd
  · obtain ⟨op, -, heq⟩ := List.mem_map.1 h
    cases heq
    cases hd

/-- **The start.** The standard table and the standard environment agree. -/
theorem agree_standard : Agree Decl.standard Env.standard where
  table_flat := Table.depth_foldl_saveOuter _ _
  env_flat := rfl
  unarySig_eq op := by
    rw [Table.unarySig, (get?_standard_iff _ _).2 op.mem_standardEntries]
  binarySig_eq op := by
    rw [Table.binarySig, (get?_standard_iff _ _).2 op.mem_standardEntries]
  declared {x v} hx := by
    have hmem := (Env.get?_standard_iff x v).1 hx
    rcases List.mem_cons.1 hmem with heq | hmem
    · cases heq
      exact ⟨.const true, (get?_standard_iff _ _).2 (by simp [Decl.standardEntries]), rfl⟩
    · cases List.mem_singleton.1 hmem
      exact ⟨.const false, (get?_standard_iff _ _).2 (by simp [Decl.standardEntries]), rfl⟩
  bound {x d} hx hd := by
    have hmem := mem_of_mem_standardEntries ((get?_standard_iff x d).1 hx) hd
    rcases List.mem_cons.1 hmem with heq | hmem
    · cases heq
      exact ⟨.bool true, (Env.get?_standard_iff _ _).2 (by simp), rfl⟩
    · cases List.mem_singleton.1 hmem
      exact ⟨.bool false, (Env.get?_standard_iff _ _).2 (by simp), rfl⟩

/-! ## Histories -/

/-- A call that runs a source. -/
inductive SourceCall
  | run (src : Source)
  | echo (src : Source)
  | loadPrelude

/-- The source that a call runs. -/
def SourceCall.source : SourceCall → Source
  | run src | echo src => src
  | loadPrelude => preludeSource

namespace Session

/-- The reply of a session to a call. -/
def answer (s : Session) : SourceCall → Reply Value
  | .run src => s.run src
  | .echo src => s.echo src
  | .loadPrelude => s.loadPrelude

/-- A session after some calls, each of which succeeds or fails. -/
def afterAll (s : Session) (calls : List SourceCall) : Session :=
  calls.foldl (fun s call => (s.answer call).session) s

theorem exists_answer_eq_runWith (s : Session) (call : SourceCall) :
    ∃ echo, s.answer call = s.runWith echo call.source := by
  cases call with
  | run src => exact ⟨s.settings.echo, rfl⟩
  | echo src => exact ⟨true, rfl⟩
  | loadPrelude => exact ⟨false, rfl⟩

/-- A call that yields a value has checked and evaluated a whole program, and leaves what these two
leave. -/
theorem answer_ok {s : Session} {call : SourceCall} {v : Value}
    (h : (s.answer call).result = .ok v) :
    ∃ p, call.source.program = .ok p ∧ (Program.check s.table p).result = .ok () ∧
      (Program.eval s.settings.dialect s.env (Program.check s.table p).tree).result = .ok v ∧
      (s.answer call).session =
        { s with
          table := (Program.check s.table p).table
          env := (Program.eval s.settings.dialect s.env (Program.check s.table p).tree).env } := by
  obtain ⟨echo, heq⟩ := s.exists_answer_eq_runWith call
  rw [heq] at h ⊢
  obtain ⟨p, hp, heval, hsession⟩ := runWith_ok h
  obtain ⟨hcheck, hrun, hnew⟩ := eval_ok heval
  exact ⟨p, hp, hcheck, hrun, hsession.trans hnew⟩

theorem answer_session_of_error {s : Session} {call : SourceCall} {f : Failure}
    (h : (s.answer call).result = .error f) : (s.answer call).session = s := by
  obtain ⟨echo, heq⟩ := s.exists_answer_eq_runWith call
  rw [heq] at h ⊢
  exact (runWith_error h).1

/-- **One call.** A call keeps the agreement, and its value fits the type of the last expression. -/
theorem agree_answer {s : Session} (h : Agree s.table s.env) (call : SourceCall) :
    Agree (s.answer call).session.table (s.answer call).session.env ∧
      ∀ p v, call.source.program = .ok p → p ≠ [] → (s.answer call).result = .ok v →
        ∃ e, (Program.check s.table p).tree.getLast? = some e ∧ v.Fits e.ty := by
  cases hr : (s.answer call).result with
  | error f =>
    rw [answer_session_of_error hr]
    exact ⟨h, fun p v _ _ hv => by cases hv⟩
  | ok w =>
    obtain ⟨p, hp, hcheck, hrun, hsession⟩ := answer_ok hr
    obtain ⟨hagree, hlast⟩ := Program.sound (Source.wellSorted_of_program hp) hcheck h hrun
    rw [hsession]
    refine ⟨hagree, fun q v hq hne hv => ?_⟩
    rw [hp] at hq
    cases hq
    cases hv
    exact hlast hne

/-- **All calls.** The table and the environment agree after any calls. -/
theorem agree_afterAll {s : Session} (h : Agree s.table s.env) (calls : List SourceCall) :
    Agree (s.afterAll calls).table (s.afterAll calls).env := by
  induction calls generalizing s with
  | nil => exact h
  | cons call calls ih => exact ih (agree_answer h call).1

private theorem scan_assign_print :
    (Source.ofString "a" "x = print 3").scan =
      .ok [⟨.identifier, "x", ⟨"a", 1, 1⟩⟩, ⟨.binary .assign, "=", ⟨"a", 1, 3⟩⟩,
        ⟨.print, "print", ⟨"a", 1, 5⟩⟩, ⟨.integer, "3", ⟨"a", 1, 11⟩⟩, .eofAt ⟨"a", 1, 12⟩] := by
  have hx : (Source.ofString "a" "x = print 3").cursor.scan .clean =
      ((⟨⟨"a", 1, 2⟩, " = print 3".toList⟩ : Cursor).scan .clean).map
        (⟨.identifier, "x", ⟨"a", 1, 1⟩⟩ :: ·) := Cursor.scan_of_ok rfl (by decide)
  have heq : (⟨⟨"a", 1, 2⟩, " = print 3".toList⟩ : Cursor).scan .clean =
      ((⟨⟨"a", 1, 4⟩, " print 3".toList⟩ : Cursor).scan .clean).map
        (⟨.binary .assign, "=", ⟨"a", 1, 3⟩⟩ :: ·) := Cursor.scan_of_ok rfl (by decide)
  have hprint : (⟨⟨"a", 1, 4⟩, " print 3".toList⟩ : Cursor).scan .clean =
      ((⟨⟨"a", 1, 10⟩, " 3".toList⟩ : Cursor).scan .clean).map
        (⟨.print, "print", ⟨"a", 1, 5⟩⟩ :: ·) := Cursor.scan_of_ok rfl (by decide)
  have hthree : (⟨⟨"a", 1, 10⟩, " 3".toList⟩ : Cursor).scan .clean =
      ((⟨⟨"a", 1, 12⟩, []⟩ : Cursor).scan .clean).map (⟨.integer, "3", ⟨"a", 1, 11⟩⟩ :: ·) :=
    Cursor.scan_of_ok rfl (by decide)
  have hend : (⟨⟨"a", 1, 12⟩, []⟩ : Cursor).scan .clean = .ok [.eofAt ⟨"a", 1, 12⟩] :=
    Cursor.scan_of_eof rfl rfl
  show (Source.ofString "a" "x = print 3").cursor.scan .clean = _
  rw [hx, heq, hprint, hthree, hend]
  rfl

private theorem program_assign_print :
    (Source.ofString "a" "x = print 3").program =
      .ok [.assign ⟨"a", 1, 3⟩ .unknown .assign (.var ⟨"a", 1, 1⟩ .unknown "x")
        (.print ⟨"a", 1, 5⟩ (.int ⟨"a", 1, 11⟩ 3))] := by
  refine Source.program_eq_ok_iff.2 ⟨_, scan_assign_print, parse_eq_ok_iff.2 ⟨[
    .infixed _ .assign (.atom ⟨.identifier, "x", ⟨"a", 1, 1⟩⟩ _ rfl)
      (.prefixed ⟨.print, "print", ⟨"a", 1, 5⟩⟩ .print
        (.atom ⟨.integer, "3", ⟨"a", 1, 11⟩⟩ (.int ⟨"a", 1, 11⟩ 3) rfl) rfl) rfl], [.eofAt _],
    ⟨?_, ?_⟩, rfl, rfl, rfl⟩⟩
  · intro p hp
    rw [List.mem_singleton.1 hp]
    exact ⟨trivial, ⟨trivial, by decide⟩, by decide, by decide⟩
  · intro p hp
    cases hp

/-- **Types after any calls.** After any calls that run sources, from a new session on, there is one
level of names; those with a value are the ones declared as variables or constants; every variable
has a type of values, and its value is `unit` or of this type; and the value of a further call, if
it succeeds, is `unit` or of the type that is attached to the last expression of its program. -/
theorem typed_afterAll (settings : Settings) (calls : List SourceCall) (s : Session)
    (hs : s = (start settings).afterAll calls) :
    (s.table.depth = 0 ∧ s.env.depth = 0) ∧
    (∀ x, (∃ v, s.env.get? x = some v) ↔
      (∃ ty, s.table.get? x = some (.var ty)) ∨ ∃ b, s.table.get? x = some (.const b)) ∧
    (∀ x ty, s.table.get? x = some (.var ty) →
      (ty = .int ∨ ty = .bool) ∧ ∃ v, s.env.get? x = some v ∧ (v = .unit ∨ v.tag? = some ty)) ∧
    ∀ call p v, call.source.program = .ok p → p ≠ [] → (s.answer call).result = .ok v →
      ∃ e, (Program.check s.table p).tree.getLast? = some e ∧ (v = .unit ∨ v.tag? = some e.ty) := by
  have hagree : Agree s.table s.env := hs ▸ agree_afterAll agree_standard calls
  refine ⟨⟨hagree.table_flat, hagree.env_flat⟩, fun x => ⟨?_, ?_⟩, fun x ty hx => ?_,
    fun call p v => (agree_answer hagree call).2 p v⟩
  · rintro ⟨v, hv⟩
    obtain ⟨d, hd, hadmits⟩ := hagree.declared hv
    cases d with
    | var ty => exact .inl ⟨ty, hd⟩
    | const b => exact .inr ⟨b, hd⟩
    | unary | binary => exact hadmits.elim
  · rintro (⟨ty, hx⟩ | ⟨b, hx⟩)
    · obtain ⟨v, hv, -⟩ := hagree.bound hx rfl
      exact ⟨v, hv⟩
    · obtain ⟨v, hv, -⟩ := hagree.bound hx rfl
      exact ⟨v, hv⟩
  · obtain ⟨v, hv, hty, hfits⟩ := hagree.bound hx rfl
    exact ⟨hty, v, hv, hfits⟩

/-- After `x = print 3` the value of `x` is one that fits the type of words. -/
theorem typed_after_assign_print :
    ∃ v, ((start .default).afterAll [.run (.ofString "a" "x = print 3")]).env.get? "x" = some v ∧
      (v = .unit ∨ v.tag? = some .int) := by
  refine ((typed_afterAll .default _ _ rfl).2.2.1 "x" .int ?_).2
  have hx : Decl.standard.get? "x" = none := by decide +kernel
  have heval : ((start .default).eval
        [.assign ⟨"a", 1, 3⟩ .unknown .assign (.var ⟨"a", 1, 1⟩ .unknown "x")
          (.print ⟨"a", 1, 5⟩ (.int ⟨"a", 1, 11⟩ 3))]) =
      ⟨.ok .unit, ⟨.default, Decl.standard.save "x" (.var .int), Env.standard.save "x" .unit⟩,
        [.int 3], []⟩ := by
    simp [eval, start, Program.check, Expr.check, assignTo, hx, Program.eval, Program.evalFrom,
      Expr.eval, Expr.retype, Run.andThen, Run.yield, Run.located, Dialect.update, traced,
      Settings.default]
  show ((start .default).runWith false _).session.table.get? "x" = _
  rw [runWith_of_ok program_assign_print (congrArg Reply.result heval), heval, Table.get?_save,
    if_pos rfl]

end Session

end Reckon
