import Reckon.Value

/-!
# Settings

What a session can be set to.

* `Settings.default`: the settings of a session that is told nothing.
* `Settings.wantsPrelude`: whether a session starts with the prelude.
-/

namespace Reckon

/-- The settings of a session. -/
structure Settings where
  /-- Show the value of every run. -/
  echo : Bool
  /-- Start with the prelude, or without it; if nothing is said, only interactive sessions do. -/
  prelude : Option Bool
  /-- Report tokens, trees and types. -/
  trace : Bool
  /-- The file that keeps the lines of interactive sessions. -/
  history : String
  /-- The rules for the operators that can be chosen. -/
  dialect : Dialect
deriving DecidableEq, Repr

namespace Settings

/-- The settings of a session that is told nothing. -/
def default : Settings where
  echo := false
  prelude := none
  trace := false
  history := ".exprlang_history"
  dialect := ⟨true, true⟩

/-- Whether a session starts with the prelude. -/
def wantsPrelude (s : Settings) (interactive : Bool) : Bool := s.prelude.getD interactive

end Settings

end Reckon
