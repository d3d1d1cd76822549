import Reckon.Proofs.Evaluation
import Reckon.Proofs.Joining
import Reckon.Proofs.Session.Rollback

/-!
# Runs in a row

A source that is run on a new line after another one does what the two runs do in a row, if both
succeed. The joined run checks everything before it evaluates anything, while two runs take turns;
but what is checked depends on what was checked before only, and what is evaluated on what was
evaluated.

* `Program.check_append`, `Program.evalFrom_append`: programs in a row.
* `Session.eval_append_of_ok`, `Session.eval_of_append_ok`: evaluating programs in a row.
* `Session.run_join_iff`: running joined sources.
-/

namespace Reckon

/-! ## Programs -/

/-- The second program is checked under what the first one has declared, if that one passes. -/
theorem Program.check_append (t : Table Decl) (p q : Program) :
    Program.check t (p ++ q) =
      match (Program.check t p).result with
      | .error e => ⟨.error e, (Program.check t p).tree ++ q, (Program.check t p).table⟩
      | .ok _ =>
        let c := Program.check (Program.check t p).table q
        ⟨c.result, (Program.check t p).tree ++ c.tree, c.table⟩ := by
  induction p generalizing t with
  | nil => rfl
  | cons e p ih =>
    simp only [List.cons_append, Program.check, ih]
    cases (e.check t).result with
    | error err => rfl
    | ok ty => cases (Program.check (e.check t).table p).result <;> rfl

theorem Program.check_append_ok {t : Table Decl} {p q : Program}
    (h : (Program.check t (p ++ q)).result = .ok ()) :
    (Program.check t p).result = .ok () ∧
      (Program.check (Program.check t p).table q).result = .ok () := by
  rw [Program.check_append] at h
  cases hp : (Program.check t p).result with
  | error e => rw [hp] at h; cases h
  | ok u => rw [hp] at h; exact ⟨rfl, h⟩

theorem Program.check_append_of_ok {t : Table Decl} {p q : Program}
    (hp : (Program.check t p).result = .ok ())
    (hq : (Program.check (Program.check t p).table q).result = .ok ()) :
    Program.check t (p ++ q) =
      ⟨.ok (), (Program.check t p).tree ++ (Program.check (Program.check t p).table q).tree,
        (Program.check (Program.check t p).table q).table⟩ := by
  simp only [Program.check_append, hp, hq]

theorem Program.check_tree_eq_nil_iff (t : Table Decl) (p : Program) :
    (Program.check t p).tree = [] ↔ p = [] := by
  have hlen := congrArg List.length (Program.untyped_tree t p)
  rw [List.length_map, List.length_map] at hlen
  rw [← List.length_eq_zero_iff, hlen, List.length_eq_zero_iff]

/-- The second program is evaluated in the environment that the first one leaves. -/
theorem Program.evalFrom_append (d : Dialect) (last : Value) (env : Env) (p q : Program) :
    Program.evalFrom d last env (p ++ q) =
      (Program.evalFrom d last env p).andThen fun v env => Program.evalFrom d v env q := by
  induction p generalizing last env with
  | nil => rfl
  | cons e p ih =>
    simp only [List.cons_append, Program.evalFrom, ih]
    exact (Run.andThen_assoc _ _ _).symm

/-- Evaluation starts with the value `unit`, but what it starts with matters to an empty program
only. -/
theorem Program.evalFrom_eq (d : Dialect) (last : Value) (env : Env) (p : Program) :
    Program.evalFrom d last env p =
      if p = [] then .yield env last else Program.eval d env p := by
  cases p with
  | nil => rfl
  | cons e p => rfl

/-- Two programs that yield values in turn yield the second in a row, or the first if the second
program is empty. -/
theorem Program.eval_append_of_ok {d : Dialect} {env : Env} {p q : Program} {v w : Value}
    (hp : (Program.eval d env p).result = .ok v)
    (hq : (Program.eval d (Program.eval d env p).env q).result = .ok w) :
    Program.eval d env (p ++ q) =
      ⟨.ok (if q = [] then v else w), (Program.eval d (Program.eval d env p).env q).env,
        (Program.eval d env p).printed ++
          (Program.eval d (Program.eval d env p).env q).printed⟩ := by
  have happend : Program.eval d env (p ++ q) =
      (Program.eval d env p).andThen fun v env => Program.evalFrom d v env q :=
    Program.evalFrom_append d .unit env p q
  rw [happend]
  simp only [Run.andThen, hp, Program.evalFrom_eq d v]
  split
  · rename_i hnil
    subst hnil
    rfl
  · rw [hq]

/-- A program in a row with another that yields a value yields one by itself, and so does the other
after it. -/
theorem Program.eval_of_append_ok {d : Dialect} {env : Env} {p q : Program} {v : Value}
    (h : (Program.eval d env (p ++ q)).result = .ok v) :
    ∃ w w', (Program.eval d env p).result = .ok w ∧
      (Program.eval d (Program.eval d env p).env q).result = .ok w' := by
  rw [Program.eval, Program.evalFrom_append] at h
  obtain ⟨w, hw, hrest, -⟩ := Run.andThen_ok h
  rw [Program.evalFrom_eq] at hrest
  split at hrest
  · rename_i hnil
    subst hnil
    exact ⟨w, .unit, hw, rfl⟩
  · exact ⟨w, v, hw, hrest⟩

/-! ## Sessions -/

namespace Session

variable {s : Session} {p q : Program} {v w : Value}

/-- Two programs that succeed in turn succeed in a row. -/
theorem eval_append_of_ok (hp : (s.eval p).result = .ok v)
    (hq : ((s.eval p).session.eval q).result = .ok w) :
    (s.eval (p ++ q)).result = .ok (if q = [] then v else w) ∧
      (s.eval (p ++ q)).session = ((s.eval p).session.eval q).session ∧
      (s.eval (p ++ q)).printed = (s.eval p).printed ++ ((s.eval p).session.eval q).printed := by
  obtain ⟨hcp, hrp, -⟩ := eval_ok hp
  rw [eval_of_ok hcp hrp] at hq ⊢
  obtain ⟨hcq, hrq, -⟩ := eval_ok hq
  rw [eval_of_ok hcq hrq]
  dsimp only at hcq hrq ⊢
  have hcheck := Program.check_append_of_ok hcp hcq
  have hrun := Program.eval_append_of_ok hrp hrq
  have hresult : (Program.eval s.settings.dialect s.env
      (Program.check s.table (p ++ q)).tree).result = .ok (if q = [] then v else w) := by
    rw [hcheck, hrun]
    simp only [Program.check_tree_eq_nil_iff]
  rw [eval_of_ok (congrArg Checked.result hcheck) hresult, hcheck, hrun]
  exact ⟨rfl, rfl, rfl⟩

/-- Two programs that succeed in a row succeed in turn. -/
theorem eval_of_append_ok (h : (s.eval (p ++ q)).result = .ok v) :
    ∃ w w', (s.eval p).result = .ok w ∧ ((s.eval p).session.eval q).result = .ok w' := by
  obtain ⟨hcheck, hrun, -⟩ := eval_ok h
  obtain ⟨hcp, hcq⟩ := Program.check_append_ok hcheck
  rw [Program.check_append_of_ok hcp hcq] at hrun
  obtain ⟨w, w', hrp, hrq⟩ := Program.eval_of_append_ok hrun
  rw [eval_of_ok hcp hrp]
  exact ⟨w, w', rfl, congrArg Reply.result (eval_of_ok hcq hrq)⟩

theorem settings_eval (s : Session) (p : Program) : (s.eval p).session.settings = s.settings := by
  cases h : (s.eval p).result with
  | error f => rw [(eval_error h).1]
  | ok v => rw [(eval_ok h).2.2]

/-- With echo off, running a source is evaluating its program. -/
theorem run_of_program {src : Source} (hecho : s.settings.echo = false)
    (hp : src.program = .ok p) :
    (s.run src).result = (s.eval p).result ∧ (s.run src).session = (s.eval p).session ∧
      (s.run src).printed = (s.eval p).printed := by
  rw [run, hecho]
  cases h : (s.eval p).result with
  | error f =>
    rw [runWith_of_error hp h]
    exact ⟨rfl, rfl, rfl⟩
  | ok v =>
    rw [runWith_of_ok hp h]
    exact ⟨rfl, rfl, List.append_nil _⟩

section Join

variable {src₁ src₂ : Source} {p₁ p₂ : Program} {ts₂ : List Token}

/-- Two runs that succeed in turn succeed as one. -/
theorem run_join_of_ok (hecho : s.settings.echo = false) (name : String)
    (h₁ : src₁.program = .ok p₁) (hts₂ : src₂.scan = .ok ts₂) (h₂ : src₂.program = .ok p₂)
    (hseam : p₁ = [] ∨ (headKind ts₂).power = Token.Kind.leastPower)
    (hv : (s.run src₁).result = .ok v) (hw : ((s.run src₁).session.run src₂).result = .ok w) :
    (s.run (src₁.join name src₂)).result = .ok (if p₂ = [] then v else w) ∧
      (s.run (src₁.join name src₂)).session = ((s.run src₁).session.run src₂).session ∧
      (s.run (src₁.join name src₂)).printed =
        (s.run src₁).printed ++ ((s.run src₁).session.run src₂).printed := by
  obtain ⟨p, hp, hmap⟩ := Source.program_join name h₁ h₂ hts₂ hseam
  have halike := s.eval_alike hmap
  obtain ⟨hresult₁, hsession₁, hprinted₁⟩ := run_of_program hecho h₁
  rw [hsession₁] at hw ⊢
  obtain ⟨hresult₂, hsession₂, hprinted₂⟩ :=
    run_of_program ((congrArg Settings.echo (s.settings_eval p₁)).trans hecho) h₂
  obtain ⟨hresult, hsession, hprinted⟩ := run_of_program hecho hp
  rw [hresult₁] at hv
  rw [hresult₂] at hw
  rw [hresult, halike.ok_iff, hsession, halike.session, hprinted, halike.printed, hsession₂,
    hprinted₁, hprinted₂]
  exact eval_append_of_ok hv hw

/-- Two sources that succeed as one succeed in turn. -/
theorem run_of_join_ok (hecho : s.settings.echo = false) (name : String)
    (h₁ : src₁.program = .ok p₁) (hts₂ : src₂.scan = .ok ts₂) (h₂ : src₂.program = .ok p₂)
    (hseam : p₁ = [] ∨ (headKind ts₂).power = Token.Kind.leastPower)
    (hv : (s.run (src₁.join name src₂)).result = .ok v) :
    ∃ w w', (s.run src₁).result = .ok w ∧ ((s.run src₁).session.run src₂).result = .ok w' := by
  obtain ⟨p, hp, hmap⟩ := Source.program_join name h₁ h₂ hts₂ hseam
  obtain ⟨hresult₁, hsession₁, -⟩ := run_of_program hecho h₁
  obtain ⟨hresult₂, -, -⟩ :=
    run_of_program ((congrArg Settings.echo (s.settings_eval p₁)).trans hecho) h₂
  rw [(run_of_program hecho hp).1, (s.eval_alike hmap).ok_iff] at hv
  rw [hresult₁, hsession₁, hresult₂]
  exact eval_of_append_ok hv

/-- **Runs in a row.** Let echo be off, and let two sources be read such that the first has no
expression or the second begins with a token that cannot extend an expression. Running them in turn
succeeds both times exactly if running them as one source does, with a line feed between them. Then
the sessions are the same, the output is that of the first run and then that of the second, and the
value is that of the second, or of the first if the second has no expression. -/
theorem run_join_iff (s : Session) (hecho : s.settings.echo = false) (name : String)
    (h₁ : src₁.program = .ok p₁) (hts₂ : src₂.scan = .ok ts₂) (h₂ : src₂.program = .ok p₂)
    (hseam : p₁ = [] ∨ (headKind ts₂).power = Token.Kind.leastPower) (r₁ r₂ r : Reply Value)
    (hr₁ : r₁ = s.run src₁) (hr₂ : r₂ = r₁.session.run src₂)
    (hr : r = s.run (src₁.join name src₂)) :
    (r₁.isOk = true ∧ r₂.isOk = true ↔ r.isOk = true) ∧
    (r.isOk = true → r.session = r₂.session ∧ r.output = r₁.output ++ r₂.output ∧
      r.result = if p₂ = [] then r₁.result else r₂.result) := by
  subst hr₁ hr₂ hr
  refine ⟨⟨?_, fun h => ?_⟩, fun h => ?_⟩
  · rintro ⟨hok₁, hok₂⟩
    obtain ⟨v, hv⟩ := Reply.isOk_iff.1 hok₁
    obtain ⟨w, hw⟩ := Reply.isOk_iff.1 hok₂
    exact Reply.isOk_iff.2 ⟨_, (run_join_of_ok hecho name h₁ hts₂ h₂ hseam hv hw).1⟩
  · obtain ⟨u, hu⟩ := Reply.isOk_iff.1 h
    obtain ⟨v, w, hv, hw⟩ := run_of_join_ok hecho name h₁ hts₂ h₂ hseam hu
    exact ⟨Reply.isOk_iff.2 ⟨v, hv⟩, Reply.isOk_iff.2 ⟨w, hw⟩⟩
  · obtain ⟨u, hu⟩ := Reply.isOk_iff.1 h
    obtain ⟨v, w, hv, hw⟩ := run_of_join_ok hecho name h₁ hts₂ h₂ hseam hu
    obtain ⟨hresult, hsession, hprinted⟩ := run_join_of_ok hecho name h₁ hts₂ h₂ hseam hv hw
    refine ⟨hsession, ?_, ?_⟩
    · simp only [Reply.output, hprinted, List.map_append, String.join_append]
    · rw [hresult, hv, hw]
      split <;> rfl

end Join

private def commented : Program :=
  [.assign ⟨"a", 1, 3⟩ .unknown .assign (.var ⟨"a", 1, 1⟩ .unknown "x") (.int ⟨"a", 1, 5⟩ 3)]

private theorem program_commented :
    (Source.ofString "a" "x = 3 # three").program = .ok commented := by
  have hscan : (Source.ofString "a" "x = 3 # three").scan =
      .ok [⟨.identifier, "x", ⟨"a", 1, 1⟩⟩, ⟨.binary .assign, "=", ⟨"a", 1, 3⟩⟩,
        ⟨.integer, "3", ⟨"a", 1, 5⟩⟩, .eofAt ⟨"a", 1, 14⟩] := by
    iterate 3 refine Cursor.scan_cons rfl (by decide) ?_
    exact Cursor.scan_of_eof rfl rfl
  refine Source.program_eq_ok_iff.2 ⟨_, hscan, parse_eq_ok_iff.2 ⟨[
    .infixed _ .assign (.atom ⟨.identifier, "x", ⟨"a", 1, 1⟩⟩ _ rfl)
      (.atom ⟨.integer, "3", ⟨"a", 1, 5⟩⟩ (.int ⟨"a", 1, 5⟩ 3) rfl) rfl], [.eofAt _],
    ⟨?_, ?_⟩, rfl, rfl, rfl⟩⟩
  · intro p hp
    rw [List.mem_singleton.1 hp]
    exact ⟨trivial, trivial, by decide, by decide⟩
  · intro p hp
    cases hp

private theorem scan_name :
    (Source.ofString "b" "x").scan =
      .ok [⟨.identifier, "x", ⟨"b", 1, 1⟩⟩, .eofAt ⟨"b", 1, 2⟩] := by
  exact Cursor.scan_cons rfl (by decide) (Cursor.scan_of_eof rfl rfl)

private theorem program_name :
    (Source.ofString "b" "x").program = .ok [.var ⟨"b", 1, 1⟩ .unknown "x"] := by
  refine Source.program_eq_ok_iff.2 ⟨_, scan_name, parse_eq_ok_iff.2 ⟨[
    .atom ⟨.identifier, "x", ⟨"b", 1, 1⟩⟩ _ rfl], [.eofAt _], ⟨?_, ?_⟩, rfl, rfl, rfl⟩⟩
  · intro p hp
    rw [List.mem_singleton.1 hp]
    trivial
  · intro p hp
    cases hp

private theorem eval_commented :
    (start .default).eval commented =
      ⟨.ok (.int 3), ⟨.default, Decl.standard.save "x" (.var .int),
        Env.standard.save "x" (.int 3)⟩, [], []⟩ := by
  have hx : Decl.standard.get? "x" = none := by decide +kernel
  simp [commented, eval, start, Program.check, Expr.check, assignTo, hx, Program.eval,
    Program.evalFrom, Expr.eval, Expr.retype, Run.andThen, Run.yield, Run.located, Dialect.update,
    traced, Settings.default]

private theorem eval_name :
    ((start .default).eval commented).session.eval [.var ⟨"b", 1, 1⟩ .unknown "x"] =
      ⟨.ok (.int 3), ⟨.default, Decl.standard.save "x" (.var .int),
        Env.standard.save "x" (.int 3)⟩, [], []⟩ := by
  rw [eval_commented]
  simp [eval, Program.check, Expr.check, nameType, Table.get?_save, Program.eval, Program.evalFrom,
    Expr.eval, Env.value, Run.andThen, Run.yield, traced, Settings.default]

/-- The comment behind `x = 3` ends with its line, so the `x` on the next line is `3`. -/
theorem run_join_after_comment :
    ((start .default).run
      ((Source.ofString "a" "x = 3 # three").join "c" (.ofString "b" "x"))).result =
        .ok (.int 3) := by
  obtain ⟨hresult₁, hsession₁, -⟩ := run_of_program (s := start .default) rfl program_commented
  have hecho₁ : ((start .default).run (.ofString "a" "x = 3 # three")).session.settings.echo =
      false := by
    rw [hsession₁, eval_commented]
    rfl
  obtain ⟨hresult₂, -, -⟩ := run_of_program hecho₁ program_name
  rw [eval_commented] at hresult₁
  have hvalue₂ := hresult₂.trans (by rw [hsession₁, eval_name])
  have hjoin := run_join_iff (start .default) rfl "c" program_commented scan_name program_name
    (.inr rfl) _ _ _ rfl rfl rfl
  have hok := hjoin.1.1 ⟨Reply.isOk_iff.2 ⟨_, hresult₁⟩, Reply.isOk_iff.2 ⟨_, hvalue₂⟩⟩
  exact (hjoin.2 hok).2.2.trans hvalue₂

end Session

end Reckon
