import Reckon.Proofs.RoundTrip
import Reckon.Proofs.Session.Rollback

/-!
# Layout does not matter

Two sources with the same tokens, wherever these stand, are run alike: the results differ in nothing
but the location of an error. What is written for a program has other tokens than the source that
the program was read from, but is read back as this program, so it is run alike, too.

* `Source.wording`: a source without its layout.
* `Reply.observed`: a reply without the location of its failure.
* `Source.unlocated_program`: up to locations, the program of a source depends on its wording.
* `Session.runWith_alike`: sources whose programs are evaluated alike are run alike.
* `Session.eval_alike_read_back`: what is written for a program is evaluated like the program.
* `Session.run_independent_of_layout`: running sources with the same wording, and running what is
  written for the program of a source.
-/

namespace Reckon

open Token (Kind)

/-! ## Without layout -/

/-- What a source says, apart from its layout: the kinds and spellings of its tokens, or why it
cannot be scanned. -/
def Source.wording (src : Source) : Except ScanError (List (Kind × String)) :=
  match src.scan with
  | .error e => .error e.cause
  | .ok ts => .ok (ts.map fun t => (t.kind, t.spelling))

/-- What is seen of a reply, apart from locations: the value, or the stage and the message of the
failure; the output; and the session after it. -/
def Reply.observed (r : Reply Value) : Except (Stage × String) Value × String × Session :=
  (r.result.mapError fun f => (f.stage, f.message), r.output, r.session)

theorem Failure.stage_unlocated (f : Failure) : f.unlocated.stage = f.stage := by
  cases f <;> rfl

theorem Failure.message_unlocated (f : Failure) : f.unlocated.message = f.message := by
  cases f <;> rfl

/-- Replies that differ in locations only look the same. -/
theorem Reply.Alike.observed_eq {r r' : Reply Value} (h : r.Alike r') :
    r.observed = r'.observed := by
  have hresult : ∀ r : Reply Value, (r.result.mapError fun f => (f.stage, f.message)) =
      (r.result.mapError Failure.unlocated).mapError fun f => (f.stage, f.message) := by
    intro r
    cases r.result with
    | error f =>
      have hseen : (f.stage, f.message) = (f.unlocated.stage, f.unlocated.message) := by
        rw [f.stage_unlocated, f.message_unlocated]
      exact congrArg Except.error hseen
    | ok v => rfl
  simp only [observed, output, h.printed, h.session, hresult, h.result]

/-! ## Programs -/

/-- What is read from tokens with the kinds and spellings of a wording, wherever they stand. -/
def programOfWording : Except ScanError (List (Kind × String)) → Except Failure Program
  | .error e => .error (.scan ⟨.nowhere, e⟩)
  | .ok ws => (parse (ws.map fun w => ⟨w.1, w.2, .nowhere⟩)).mapError .parse

/-- **Wording and programs.** Up to locations, the program of a source depends on its wording. -/
theorem Source.unlocated_program (src : Source) :
    (src.program.mapError Failure.unlocated).map (List.map Expr.unlocated) =
      programOfWording src.wording := by
  unfold Source.program Source.tokens Source.wording
  cases src.scan with
  | error e => rfl
  | ok ts =>
    have htokens : (ts.map fun t => (t.kind, t.spelling)).map
        (fun w => (⟨w.1, w.2, .nowhere⟩ : Token)) = ts.map Token.unlocated := by
      rw [List.map_map]
      rfl
    rw [programOfWording, htokens, parse_unlocated]
    show (((parse ts).mapError Failure.parse).mapError Failure.unlocated).map _ = _
    cases parse ts <;> rfl

/-! ## Runs -/

namespace Session

variable {s : Session} {src₁ src₂ : Source} {p q : Program}

/-- **Sources whose programs are evaluated alike are run alike.** -/
theorem runWith_alike (echo : Bool) (hp : src₁.program = .ok p) (hq : src₂.program = .ok q)
    (h : (s.eval p).Alike (s.eval q)) : (s.runWith echo src₁).Alike (s.runWith echo src₂) := by
  cases hr : (s.eval p).result with
  | ok v =>
    rw [runWith_of_ok hp hr, runWith_of_ok hq ((h.ok_iff v).1 hr)]
    exact ⟨rfl, h.session, congrArg (· ++ echoed echo v) h.printed⟩
  | error f =>
    cases hr' : (s.eval q).result with
    | ok v => rw [(h.ok_iff v).2 hr'] at hr; cases hr
    | error f' =>
      have hresult := h.result
      rw [hr, hr'] at hresult
      rw [runWith_of_error hp hr, runWith_of_error hq hr']
      exact ⟨hresult, h.session, h.printed⟩

/-- Sources that are read alike, or fail to be read alike, are run alike. -/
theorem runWith_alike_of_program (echo : Bool)
    (h : (src₁.program.mapError Failure.unlocated).map (List.map Expr.unlocated) =
      (src₂.program.mapError Failure.unlocated).map (List.map Expr.unlocated)) :
    (s.runWith echo src₁).Alike (s.runWith echo src₂) := by
  cases h₁ : src₁.program with
  | error f₁ =>
    cases h₂ : src₂.program with
    | error f₂ =>
      rw [h₁, h₂] at h
      rw [runWith_of_unread h₁, runWith_of_unread h₂]
      refine ⟨congrArg Except.error (Except.error.inj h), rfl, rfl⟩
    | ok q => rw [h₁, h₂] at h; cases h
  | ok p =>
    cases h₂ : src₂.program with
    | error f₂ => rw [h₁, h₂] at h; cases h
    | ok q =>
      rw [h₁, h₂] at h
      exact runWith_alike echo h₁ h₂ (s.eval_alike (Except.ok.inj h))

end Session

/-! ## Written programs -/

/-- A text that scans as a sentence is read as the expressions of its phrases. -/
theorem Source.program_of_scansAs {name : String} {text : List Char} {ps : List Phrase}
    (hps : Sentence .standard ps)
    (h : ScansAs (.start name) text (ps.flatMap Phrase.yield) []) :
    (⟨name, text, .clean⟩ : Source).program = .ok (ps.map Phrase.expr) := by
  rw [ScansAs, scan_nil, List.append_nil] at h
  exact Source.program_eq_ok_iff.2 ⟨_, h, parse_eq_ok_iff.2 ⟨ps, _, hps, rfl, rfl, rfl⟩⟩

namespace Session

variable {p : Program}

/-- **What is written for a program is evaluated like the program**, also if types were attached to
it. -/
theorem eval_alike_read_back (s : Session) (name : String) (hp : ∀ e ∈ p, e.Printable) :
    ∃ q, (Source.ofString name p.text).program = .ok q ∧ (s.eval q).Alike (s.eval p) := by
  obtain ⟨ps, hps, hexpr, hscans⟩ := exists_sentence_of_printable hp (.start name)
  have htext : Source.ofString name p.text = ⟨name, p.chars, .clean⟩ := by
    rw [Source.ofString, Program.text, String.toList_ofList]
  refine ⟨ps.map Phrase.expr, htext ▸ Source.program_of_scansAs hps (hscans []), ?_⟩
  rw [← s.eval_untyped p]
  refine s.eval_alike (hexpr.trans ?_)
  rw [List.map_map]
  rfl

/-- **Layout does not matter.** Two sources with the same wording, run from the same session, give
the same value, or failures of the same stage with the same message; the same output; and the same
session. So do a source and what is written for its program, under any name. -/
theorem run_independent_of_layout (s : Session) :
    (∀ src₁ src₂ : Source, src₁.wording = src₂.wording →
      (s.run src₁).observed = (s.run src₂).observed) ∧
    ∀ (src : Source) (p : Program) (name : String), src.program = .ok p →
      (s.run (.ofString name p.text)).observed = (s.run src).observed := by
  refine ⟨fun src₁ src₂ h => ?_, fun src p name hp => ?_⟩
  · have hprogram : (src₁.program.mapError Failure.unlocated).map (List.map Expr.unlocated) =
        (src₂.program.mapError Failure.unlocated).map (List.map Expr.unlocated) := by
      rw [src₁.unlocated_program, src₂.unlocated_program, h]
    exact (runWith_alike_of_program s.settings.echo hprogram).observed_eq
  · obtain ⟨q, hq, halike⟩ := s.eval_alike_read_back name (Source.printable_of_program hp)
    exact (runWith_alike s.settings.echo hq hp halike).observed_eq

private theorem scan_plain :
    (Source.ofString "a" "2+x").scan =
      .ok [⟨.integer, "2", ⟨"a", 1, 1⟩⟩, ⟨.binary (.arith .add), "+", ⟨"a", 1, 2⟩⟩,
        ⟨.identifier, "x", ⟨"a", 1, 3⟩⟩, .eofAt ⟨"a", 1, 4⟩] := by
  iterate 3 refine Cursor.scan_cons rfl (by decide) ?_
  exact Cursor.scan_of_eof rfl rfl

private theorem scan_spread :
    (Source.ofString "b" "2 # two\n + x").scan =
      .ok [⟨.integer, "2", ⟨"b", 1, 1⟩⟩, ⟨.binary (.arith .add), "+", ⟨"b", 2, 2⟩⟩,
        ⟨.identifier, "x", ⟨"b", 2, 4⟩⟩, .eofAt ⟨"b", 2, 5⟩] := by
  iterate 3 refine Cursor.scan_cons rfl (by decide) ?_
  exact Cursor.scan_of_eof rfl rfl

private def plainSum : Program :=
  [.binary ⟨"a", 1, 2⟩ .unknown (.arith .add) (.int ⟨"a", 1, 1⟩ 2)
    (.var ⟨"a", 1, 3⟩ .unknown "x")]

private theorem program_plain : (Source.ofString "a" "2+x").program = .ok plainSum := by
  refine Source.program_eq_ok_iff.2 ⟨_, scan_plain, parse_eq_ok_iff.2 ⟨[
    .infixed _ (.arith .add) (.atom ⟨.integer, "2", ⟨"a", 1, 1⟩⟩ (.int ⟨"a", 1, 1⟩ 2) rfl)
      (.atom ⟨.identifier, "x", ⟨"a", 1, 3⟩⟩ _ rfl) rfl], [.eofAt _], ⟨?_, ?_⟩, rfl, rfl, rfl⟩⟩
  · intro p hp
    rw [List.mem_singleton.1 hp]
    exact ⟨trivial, trivial, by decide, by decide⟩
  · intro p hp
    cases hp

/-- The three spellings of `2 + x` fail alike, where `x` is not declared. -/
theorem run_unknown_name_layouts :
    ((start .default).run (.ofString "a" "2+x")).observed =
        ((start .default).run (.ofString "b" "2 # two\n + x")).observed ∧
      ((start .default).run (.ofString "c" "(2 + x)\n")).observed =
        ((start .default).run (.ofString "a" "2+x")).observed := by
  have hwording : (Source.ofString "a" "2+x").wording =
      (Source.ofString "b" "2 # two\n + x").wording := by
    rw [Source.wording, Source.wording, scan_plain, scan_spread]
    rfl
  have htext : Program.text plainSum = "(2 + x)\n" := by decide +kernel
  obtain ⟨hlayout, hwritten⟩ := run_independent_of_layout (start .default)
  exact ⟨hlayout _ _ hwording, htext ▸ hwritten _ _ "c" program_plain⟩

end Session

end Reckon
