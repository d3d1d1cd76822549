import Reckon.Proofs.Session.Outcome
import Reckon.Proofs.Token.Unreadable

/-!
# Running sources that break off

A source that can no longer be read at some point is never taken for one that ends there: scanning
it fails whatever was read before, so that nothing of it is parsed, checked or evaluated.

* `Source.BreaksOff.unreadable_iff`: scanning fails, by the failure to read or at an invalid
  character.
* `Session.runWith_of_scan_error`: a run that fails in scanning does nothing else.
-/

namespace Reckon

/-! ## Failures -/

namespace Source.BreaksOff

variable {src : Source} {message : String} {clean broken : Except (Located ScanError) (List Token)}

theorem of_error {e : Located ScanError} (h : src.BreaksOff message clean broken)
    (he : clean = .error e) : broken = .error e := by
  cases h with
  | invalid loc c => exact he
  | ok h => cases he

theorem of_ok {ts : List Token} (h : src.BreaksOff message clean broken) (hts : clean = .ok ts) :
    ∃ loc, src.BreaksAt ts loc ∧ broken = .error ⟨loc, .unreadable message⟩ := by
  cases h with
  | invalid loc c => cases hts
  | ok h =>
    cases hts
    exact ⟨_, h, rfl⟩

theorem exists_error (h : src.BreaksOff message clean broken) : ∃ e, broken = .error e := by
  cases h with
  | invalid loc c => exact ⟨_, rfl⟩
  | ok h => exact ⟨_, rfl⟩

/-- The failure to read is met where all of the text can be scanned, and only there. -/
theorem unreadable_iff (h : src.BreaksOff message clean broken) :
    (∃ loc, broken = .error ⟨loc, .unreadable message⟩) ↔ ∃ ts, clean = .ok ts := by
  cases h with
  | invalid loc c => exact ⟨fun ⟨_, h⟩ => (nomatch h), fun ⟨_, h⟩ => (nomatch h)⟩
  | ok h => exact ⟨fun _ => ⟨_, rfl⟩, fun _ => ⟨_, rfl⟩⟩

end Source.BreaksOff

/-! ## Runs -/

namespace Session

theorem runWith_of_scan_error {src : Source} {e : Located ScanError} (s : Session) (echo : Bool)
    (h : src.scan = .error e) : s.runWith echo src = ⟨.error (.scan e), s, [], []⟩ := by
  have htokens : src.tokens = .error (.scan e) := by rw [Source.tokens, h]; rfl
  have hprogram : src.program = .error (.scan e) := by rw [Source.program, htokens]
  have htrace : (s.parse src).trace = [] := by simp only [parse, htokens]
  rw [runWith_of_unread hprogram, htrace]

/-- **A source that breaks off never runs.** Where the same bytes would be scanned if the source
ended cleanly, scanning reports the failure to read: at the start of the number or word that the
text breaks off in, or else behind all of the text. Where they would not, the very same error is
reported. A run ends with this error, and does nothing to the session. -/
theorem broken_source_never_runs (name : String) (bytes : List UInt8) (message : String) :
    (∀ e, (Source.ofBytes name bytes).scan = .error e →
      ((Source.ofBytes name bytes).breakOff message).scan = .error e) ∧
    (∀ ts, (Source.ofBytes name bytes).scan = .ok ts →
      ∃ loc, (Source.ofBytes name bytes).BreaksAt ts loc ∧
        ((Source.ofBytes name bytes).breakOff message).scan =
          .error ⟨loc, .unreadable message⟩) ∧
    ((∃ loc, ((Source.ofBytes name bytes).breakOff message).scan =
        .error ⟨loc, .unreadable message⟩) ↔
      ∃ ts, (Source.ofBytes name bytes).scan = .ok ts) ∧
    (∀ loc, (Failure.scan ⟨loc, .unreadable message⟩).text =
      errorLine (some loc) "Scanner Error" message) ∧
    ∃ e, ((Source.ofBytes name bytes).breakOff message).scan = .error e ∧
      ∀ (s : Session) (echo : Bool), s.runWith echo ((Source.ofBytes name bytes).breakOff message) =
        ⟨.error (.scan e), s, [], []⟩ := by
  have h := (Source.ofBytes name bytes).scan_breakOff rfl message
  obtain ⟨e, he⟩ := h.exists_error
  exact ⟨fun _ => h.of_error, fun _ => h.of_ok, h.unreadable_iff, fun _ => rfl, e, he,
    fun s echo => s.runWith_of_scan_error echo he⟩

/-- The source `x = 12`, given by its bytes. -/
private def counted : Source := .ofBytes "a" [120, 32, 61, 32, 49, 50]

private theorem counted_eq : counted = .ofString "a" "x = 12" := by decide +kernel

private theorem scan_counted :
    counted.scan = .ok [⟨.identifier, "x", ⟨"a", 1, 1⟩⟩, ⟨.binary .assign, "=", ⟨"a", 1, 3⟩⟩,
      ⟨.integer, "12", ⟨"a", 1, 5⟩⟩, .eofAt ⟨"a", 1, 7⟩] := by
  rw [counted_eq]
  iterate 3 refine Cursor.scan_cons rfl (by decide) ?_
  exact Cursor.scan_of_eof rfl rfl

/-- If `x = 12` breaks off, more digits could follow: the failure is reported where `12` starts. -/
theorem broken_source_in_number :
    (counted.breakOff "torn").scan = .error ⟨⟨"a", 1, 5⟩, .unreadable "torn"⟩ := by
  obtain ⟨loc, hloc, hbroken⟩ := (broken_source_never_runs "a" _ "torn").2.1 _ scan_counted
  refine hbroken.trans ?_
  have hchars : counted.chars = "x = 12".toList := congrArg Source.chars counted_eq
  rcases hloc with ⟨t, ht, ⟨hrun, before, htext, -⟩, rfl⟩ | ⟨hnone, -⟩
  · simp only [List.mem_cons, List.not_mem_nil, or_false] at ht
    rcases ht with rfl | rfl | rfl | rfl
    · have hlast := congrArg List.getLast? (hchars.symm.trans htext)
      simp at hlast
    · cases hrun
    · rfl
    · cases hrun
  · refine absurd ⟨rfl, "x = ".toList, ?_, rfl⟩ (hnone ⟨.integer, "12", ⟨"a", 1, 5⟩⟩ (by simp))
    exact hchars.trans rfl

end Session

end Reckon
