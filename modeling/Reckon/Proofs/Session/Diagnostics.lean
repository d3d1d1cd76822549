import Reckon.Proofs.Evaluation.Fault
import Reckon.Proofs.Grammar.Places
import Reckon.Proofs.Grammar.Tree
import Reckon.Proofs.Session.Outcome
import Reckon.Proofs.Token.Standing
import Reckon.Proofs.Typing.Annotation

/-!
# Where failures point

A run that fails points into the source that it runs. Checking and evaluating report the location of
a node of the program, and these are locations of its tokens. What earlier runs have left in a
session has no locations.

* `Program.HasNodeAt`: the locations in a program.
* `Program.hasNodeAt_of_check_error`, `Program.hasNodeAt_of_eval_error`: checking and evaluating
  fail at such locations.
* `Failure.PointsInto`: what a failure of each stage points to.
* `Session.failures_point_into_source`: every failure of a run points into its source.
-/

namespace Reckon

/-! ## Nodes of programs -/

/-- Some node of the expression has the location. -/
def Expr.HasNodeAt (e : Expr) (loc : Location) : Prop := ∃ x ∈ e.parts, x.loc = loc

/-- Some node of the program has the location. -/
def Program.HasNodeAt (p : Program) (loc : Location) : Prop := ∃ e ∈ p, e.HasNodeAt loc

theorem Expr.hasNodeAt_loc (e : Expr) : e.HasNodeAt e.loc := ⟨e, e.self_mem_parts, rfl⟩

theorem Expr.HasNodeAt.of_subset {e e' : Expr} {loc : Location} (h : e.HasNodeAt loc)
    (hsub : e.parts ⊆ e'.parts) : e'.HasNodeAt loc := by
  obtain ⟨x, hx, hloc⟩ := h
  exact ⟨x, hsub hx, hloc⟩

/-! ## Checking -/

section Check

variable {t : Table Decl} {l : Location} {err : Located CheckError}

theorem loc_of_nameType_error {name : String} (h : nameType t l name = .error err) :
    err.loc = l := by
  unfold nameType at h
  split at h <;> cases h <;> rfl

theorem UnarySig.loc_of_apply_error {sig : UnarySig} {op : UnaryOp} {ty : Ty}
    (h : sig.apply l op ty = .error err) : err.loc = l := by
  unfold UnarySig.apply at h
  split at h
  · cases h
  · cases h; rfl

theorem BinarySig.loc_of_apply_error {sig : BinarySig} {op : BinaryOp} {left right : Ty}
    (h : sig.apply l op left right = .error err) : err.loc = l := by
  unfold BinarySig.apply at h
  split at h
  · split at h
    · cases h
    · cases h; rfl
  · split at h
    · cases h; rfl
    · split at h
      · cases h; rfl
      · cases h

/-- An assignment is rejected at itself or at its target. -/
theorem loc_of_assignTo_error {op : BinaryOp} {target : Expr} {ty : Ty}
    (h : assignTo t l op target ty = .error err) : err.loc = l ∨ err.loc = target.loc := by
  unfold assignTo at h
  split at h
  · split at h
    · split at h
      · split at h <;> cases h
        exact .inl rfl
      · split at h
        · rename_i hsig
          cases h
          exact .inl (BinarySig.loc_of_apply_error hsig)
        · cases h
    · cases h
      exact .inr rfl
    · split at h <;> cases h
      exact .inr rfl
  · cases h
    exact .inr rfl

/-- **Checking an expression** fails at one of its nodes. -/
theorem Expr.hasNodeAt_of_check_error {e : Expr} (h : (e.check t).result = .error err) :
    e.HasNodeAt err.loc := by
  induction e generalizing t with
  | int | bool => cases h
  | var l ty name =>
    cases hname : nameType t l name with
    | error err' =>
      simp only [check, hname] at h
      cases h
      exact ⟨_, List.mem_singleton_self _, (loc_of_nameType_error hname).symm⟩
    | ok found =>
      simp only [check, hname] at h
      cases h
  | unary l ty op operand ih =>
    cases hoperand : (operand.check t).result with
    | error err' =>
      simp only [check, hoperand] at h
      cases h
      exact (ih hoperand).of_subset (List.subset_cons_self _ _)
    | ok operandTy =>
      simp only [check, hoperand] at h
      split at h
      · rename_i hsig
        cases h
        rw [UnarySig.loc_of_apply_error hsig]
        exact hasNodeAt_loc _
      · cases h
  | binary l ty op left right ihl ihr =>
    cases hleft : (left.check t).result with
    | error err' =>
      simp only [check, hleft] at h
      cases h
      exact (ihl hleft).of_subset (List.subset_cons_of_subset _ (List.subset_append_left _ _))
    | ok leftTy =>
      cases hright : (right.check (left.check t).table).result with
      | error err' =>
        simp only [check, hleft, hright] at h
        cases h
        exact (ihr hright).of_subset (List.subset_cons_of_subset _ (List.subset_append_right _ _))
      | ok rightTy =>
        simp only [check, hleft, hright] at h
        split at h
        · rename_i hsig
          cases h
          rw [BinarySig.loc_of_apply_error hsig]
          exact hasNodeAt_loc _
        · cases h
  | assign l ty op target value _ ih =>
    cases hvalue : (value.check t).result with
    | error err' =>
      simp only [check, hvalue] at h
      cases h
      exact (ih hvalue).of_subset (List.subset_cons_of_subset _ (List.subset_append_right _ _))
    | ok valueTy =>
      simp only [check, hvalue] at h
      split at h
      · rename_i hassign
        cases h
        rcases loc_of_assignTo_error hassign with hloc | hloc
        · rw [hloc]
          exact hasNodeAt_loc _
        · rw [hloc]
          exact (hasNodeAt_loc target).of_subset
            (List.subset_cons_of_subset _ (List.subset_append_left _ _))
      · cases h
  | print l operand ih => exact (ih h).of_subset (List.subset_cons_self _ _)

/-- **Checking a program** fails at one of its nodes. -/
theorem Program.hasNodeAt_of_check_error {p : Program}
    (h : (Program.check t p).result = .error err) : p.HasNodeAt err.loc := by
  induction p generalizing t with
  | nil => cases h
  | cons e p ih =>
    cases he : (e.check t).result with
    | error err' =>
      simp only [check, he] at h
      cases h
      exact ⟨e, List.mem_cons_self, Expr.hasNodeAt_of_check_error he⟩
    | ok ty =>
      simp only [check, he] at h
      obtain ⟨e', he', hnode⟩ := ih h
      exact ⟨e', List.mem_cons_of_mem e he', hnode⟩

end Check

/-! ## Evaluating -/

section Evaluate

variable {d : Dialect} {env env' : Env}

theorem Expr.mem_parts_of_reached {e x : Expr} {π : Place}
    (h : e.reached d env π = some (x, env')) : x ∈ e.parts := by
  fun_induction Expr.reached d env e π with
  | case1 => cases h; exact self_mem_parts _
  | case2 env l ty op e π ih => exact List.mem_cons_of_mem _ (ih h)
  | case3 env l ty op a b π ih => exact List.mem_cons_of_mem _ (List.mem_append_left _ (ih h))
  | case4 env l ty op a b π ih =>
    obtain ⟨env₁, -, hb⟩ := Option.bind_eq_some_iff.1 h
    exact List.mem_cons_of_mem _ (List.mem_append_right _ (ih env₁ hb))
  | case5 env l ty op l' ty' z v π ih =>
    exact List.mem_cons_of_mem _ (List.mem_append_right _ (ih h))
  | case6 env l e π ih => exact List.mem_cons_of_mem _ (ih h)
  | case7 => cases h

theorem Program.exists_part_of_reached {p : Program} {x : Expr} {π : Place}
    (h : Program.reached d env p π = some (x, env')) : ∃ e ∈ p, x ∈ e.parts := by
  fun_induction Program.reached d env p π with
  | case1 env e p π => exact ⟨e, List.mem_cons_self, Expr.mem_parts_of_reached h⟩
  | case2 env e p π ih =>
    obtain ⟨env₁, -, hp⟩ := Option.bind_eq_some_iff.1 h
    obtain ⟨e', he', hx⟩ := ih env₁ hp
    exact ⟨e', List.mem_cons_of_mem e he', hx⟩
  | case3 => cases h

/-- **Evaluating a program** fails at one of its nodes: the one that evaluation has come to. -/
theorem Program.hasNodeAt_of_eval_error {p : Program} {err : Located EvalError}
    (hsorted : ∀ e ∈ p, e.WellSorted) (h : (Program.eval d env p).result = .error err) :
    p.HasNodeAt err.loc := by
  obtain ⟨n, env', env₁, hreached, -, hloc⟩ := Program.exists_failsAt hsorted h
  obtain ⟨e, he, hn⟩ := Program.exists_part_of_reached hreached
  exact ⟨e, he, n.expr, hn, hloc.symm⟩

end Evaluate

/-! ## Sources -/

variable {name : String} {text : List Char}

/-- What a failure points to in the source `name`: scanning fails at the first invalid character,
parsing at a token or at the end of the input, checking and evaluating at a token that is no
parenthesis. -/
def Failure.PointsInto (name : String) (text : List Char) : Failure → Prop
  | .scan e =>
    ∃ before c, FirstInvalid text before c ∧ e = ⟨.behind name before, .invalidCharacter c⟩
  | .parse e => e.loc = .behind name text ∨ ∃ t : Token, t.StandsIn name text ∧ e.loc = t.loc
  | .check ⟨loc, _⟩ | .eval ⟨loc, _⟩ =>
    ∃ t : Token, t.StandsIn name text ∧ t.kind ≠ .leftParen ∧ t.kind ≠ .rightParen ∧ loc = t.loc

theorem Token.StandsIn.file_eq {t : Token} (h : t.StandsIn name text) : t.loc.file = name := by
  obtain ⟨before, w, -, -, hloc⟩ := h
  rw [hloc]
  rfl

theorem Failure.PointsInto.file_eq {f : Failure} (h : f.PointsInto name text) :
    f.loc.file = name := by
  cases f with
  | scan e =>
    obtain ⟨before, c, -, rfl⟩ := h
    rfl
  | parse e =>
    rcases h with hloc | ⟨t, ht, hloc⟩
    · rw [loc, hloc]
      rfl
    · rw [loc, hloc]
      exact ht.file_eq
  | check e | eval e =>
    obtain ⟨t, ht, -, -, hloc⟩ := h
    rw [loc, hloc]
    exact ht.file_eq

/-- A source that cannot be scanned and parsed fails within its text. -/
theorem Source.pointsInto_of_program_error {f : Failure}
    (h : Source.program ⟨name, text, .clean⟩ = .error f) : f.PointsInto name text := by
  cases hscan : Source.scan ⟨name, text, .clean⟩ with
  | error e =>
    have htokens : Source.tokens ⟨name, text, .clean⟩ = .error (.scan e) := by
      rw [Source.tokens, hscan]
      rfl
    rw [Source.program, htokens] at h
    cases h
    exact Source.scan_error hscan
  | ok ts =>
    have htokens : Source.tokens ⟨name, text, .clean⟩ = .ok ts := mapError_eq_ok_iff.2 hscan
    rw [Source.program, htokens] at h
    cases hparse : Reckon.parse ts with
    | error e =>
      simp only [parseTokens, hparse] at h
      cases h
      obtain ⟨hne, hstands⟩ := Source.standsIn_of_scan hscan
      obtain ⟨t, ht, hloc⟩ := exists_token_of_parse_error hne hparse
      rcases hstands t ht with rfl | ht
      · exact .inl hloc
      · exact .inr ⟨t, ht, hloc⟩
    | ok p =>
      simp only [parseTokens, hparse] at h
      cases h

/-- The nodes of a program that is read from a source stand at its tokens. -/
theorem Program.HasNodeAt.exists_token {p : Program} {loc : Location} (h : p.HasNodeAt loc)
    (hp : Source.program ⟨name, text, .clean⟩ = .ok p) :
    ∃ t : Token, t.StandsIn name text ∧ t.kind ≠ .leftParen ∧ t.kind ≠ .rightParen ∧
      loc = t.loc := by
  obtain ⟨ts, hscan, hparse⟩ := Source.program_eq_ok_iff.1 hp
  obtain ⟨e, he, x, hx, rfl⟩ := h
  obtain ⟨t, ht, hne, hleft, hright, hloc⟩ := exists_token_of_part hparse he hx
  refine ⟨t, ?_, hleft, hright, hloc⟩
  rcases (Source.standsIn_of_scan hscan).2 t ht with rfl | hstands
  · exact absurd rfl hne
  · exact hstands

/-! ## Runs -/

namespace Session

/-- A program that is read from a source fails at a token of it that is no parenthesis. -/
theorem pointsInto_of_eval_error {s : Session} {p : Program} {f : Failure}
    (hp : Source.program ⟨name, text, .clean⟩ = .ok p) (h : (s.eval p).result = .error f) :
    f.PointsInto name text := by
  cases hc : (Program.check s.table p).result with
  | error e =>
    rw [eval_of_check_error hc] at h
    cases h
    exact (Program.hasNodeAt_of_check_error hc).exists_token hp
  | ok u =>
    cases hr : (Program.eval s.settings.dialect s.env (Program.check s.table p).tree).result with
    | error e =>
      rw [eval_of_eval_error hc hr] at h
      cases h
      obtain ⟨ts, -, hparse⟩ := Source.program_eq_ok_iff.1 hp
      rw [Program.eval_tree] at hr
      exact (Program.hasNodeAt_of_eval_error (wellSorted_of_parse hparse) hr).exists_token hp
    | ok v =>
      rw [eval_of_ok hc hr] at h
      cases h

theorem pointsInto_of_runWith_error {s : Session} {echo : Bool} {f : Failure}
    (h : (s.runWith echo ⟨name, text, .clean⟩).result = .error f) : f.PointsInto name text := by
  cases hp : Source.program ⟨name, text, .clean⟩ with
  | error f' =>
    rw [runWith_of_unread hp] at h
    cases h
    exact Source.pointsInto_of_program_error hp
  | ok p =>
    rw [runWith_result hp] at h
    exact pointsInto_of_eval_error hp h

/-- **Failures point into the source.** If running a source fails, in whatever state the session is,
the failure has a location in this very source: that of the first invalid character if it is scanned
no further, that of a token or the end of the text if it cannot be parsed, and that of a token which
is no parenthesis if checking or evaluating fails. The line that reports it begins with this
location. -/
theorem failures_point_into_source (s : Session) (name : String) (text : List Char) (f : Failure)
    (h : (s.run ⟨name, text, .clean⟩).result = .error f ∨
      (s.echo ⟨name, text, .clean⟩).result = .error f) :
    f.PointsInto name text ∧ f.loc.file = name ∧
      f.text = f.loc.text ++ " - " ++ f.stage.errorName ++ ": " ++ f.message := by
  have hpoints : f.PointsInto name text :=
    h.elim pointsInto_of_runWith_error pointsInto_of_runWith_error
  exact ⟨hpoints, hpoints.file_eq, rfl⟩

private theorem scan_enclosed :
    (Source.ofString "a" "(y)").scan =
      .ok [⟨.leftParen, "(", ⟨"a", 1, 1⟩⟩, ⟨.identifier, "y", ⟨"a", 1, 2⟩⟩,
        ⟨.rightParen, ")", ⟨"a", 1, 3⟩⟩, .eofAt ⟨"a", 1, 4⟩] := by
  iterate 3 refine Cursor.scan_cons rfl (by decide) ?_
  exact Cursor.scan_of_eof rfl rfl

private theorem program_enclosed :
    (Source.ofString "a" "(y)").program = .ok [.var ⟨"a", 1, 2⟩ .unknown "y"] := by
  refine Source.program_eq_ok_iff.2 ⟨_, scan_enclosed, parse_eq_ok_iff.2 ⟨[
    .paren _ (.atom ⟨.identifier, "y", ⟨"a", 1, 2⟩⟩ _ rfl) _ rfl rfl], [.eofAt _], ⟨?_, ?_⟩,
    rfl, rfl, rfl⟩⟩
  · intro p hp
    rw [List.mem_singleton.1 hp]
    trivial
  · intro p hp
    cases hp

private theorem run_enclosed :
    ((start .default).run (.ofString "a" "(y)")).result =
      .error (.check ⟨⟨"a", 1, 2⟩, .unknownName "y"⟩) := by
  have hy : Decl.standard.get? "y" = none := by decide +kernel
  have hcheck : (Program.check Decl.standard [.var ⟨"a", 1, 2⟩ .unknown "y"]).result =
      .error ⟨⟨"a", 1, 2⟩, .unknownName "y"⟩ := by
    simp [Program.check, Expr.check, nameType, hy]
  rw [run, runWith_result program_enclosed, eval_of_check_error hcheck]

/-- In `(y)` with `y` not declared, the failure points to the name and not to the parenthesis. -/
theorem failure_points_to_enclosed_name :
    ∃ t : Token, t.StandsIn "a" "(y)".toList ∧ t.kind ≠ .leftParen ∧ t.kind ≠ .rightParen ∧
      ⟨"a", 1, 2⟩ = t.loc :=
  (failures_point_into_source (start .default) "a" "(y)".toList _ (.inl run_enclosed)).1

end Session

end Reckon
