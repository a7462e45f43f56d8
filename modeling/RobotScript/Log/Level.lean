/-!
# Log levels

Models of `LogLevel` with its order, `as_str` and `parse`. The level of an event says how much
detail is asked for before it is recorded. A service with a level records the events up to that
level.
-/

namespace RobotScript.Log

/-- The level of an event, the least verbose first. -/
inductive Level where
  | error
  | warning
  | info
  | debug
  deriving Repr, DecidableEq, Inhabited

namespace Level

/-- All levels, the least verbose first. -/
def all : List Level := [.error, .warning, .info, .debug]

/-- The place of a level in the order, from 0 for the least verbose. -/
def rank : Level → Nat
  | .error => 0
  | .warning => 1
  | .info => 2
  | .debug => 3

instance : LE Level := ⟨fun a b => a.rank ≤ b.rank⟩

instance (a b : Level) : Decidable (a ≤ b) := inferInstanceAs (Decidable (a.rank ≤ b.rank))

/-- The more verbose of two levels. -/
def max (a b : Level) : Level := if a ≤ b then b else a

/-- The name of a level in event texts. -/
def name : Level → String
  | .error => "ERROR"
  | .warning => "WARN"
  | .info => "INFO"
  | .debug => "DEBUG"

/-- The word for a level in configuration files. -/
def keyword : Level → String
  | .error => "error"
  | .warning => "warning"
  | .info => "info"
  | .debug => "debug"

/-- The level that a configuration file means by a word. -/
def ofKeyword? (s : String) : Option Level := all.find? fun level => level.keyword == s

/-- The level written as a name or number, in letters of any case. No letter outside ASCII has a
small form that occurs in these words, so small forms are needed for ASCII only. -/
def parse? (s : String) : Option Level :=
  match String.ofList (s.toList.map Char.toLower) with
  | "error" | "0" => some .error
  | "warning" | "warn" | "1" => some .warning
  | "info" | "2" => some .info
  | "debug" | "3" => some .debug
  | _ => none

theorem le_refl (a : Level) : a ≤ a := Nat.le_refl _

theorem le_trans {a b c : Level} (h₁ : a ≤ b) (h₂ : b ≤ c) : a ≤ c := Nat.le_trans h₁ h₂

/-- Every event passes a service at level debug. -/
theorem le_debug (a : Level) : a ≤ .debug := by cases a <;> decide

theorem le_max_right (a b : Level) : b ≤ max a b := by
  cases a <;> cases b <;> decide

end Level

end RobotScript.Log
