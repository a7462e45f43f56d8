import RobotScript.Text.Decimal

/-!
# Sizes for readers

A model of `human_readable`: a number of bytes with a binary unit. From 1024 bytes on the size is a
fraction of the unit with two places. The program divides floating-point numbers, so the quotient is
taken from the nearest number that has 53 binary digits.
-/

namespace RobotScript.Text

/-- The nearest number with at most 53 significant binary digits; halfway, the one that ends in an
even digit. -/
def nearest53 (n : Nat) : Nat :=
  let shift := Nat.log2 n - 52
  roundDiv n (Nat.pow 2 shift) * Nat.pow 2 shift

/-- The units above the byte, each 1024 times the one before it. -/
def sizeUnits : List String := ["KB", "MB", "GB"]

/-- `num / den` in the first unit in which it is below 1024, and in the last unit otherwise. -/
def inUnit (num den : Nat) : List String → String
  | [] => fixed num den 2
  | [unit] => fixed num den 2 ++ " " ++ unit
  | unit :: larger =>
    if num < 1024 * den then fixed num den 2 ++ " " ++ unit else inUnit num (1024 * den) larger

/-- A number of bytes for a reader. -/
def size (bytes : Nat) : String :=
  let near := nearest53 bytes
  if near < 1024 then toString bytes ++ " B" else inUnit near 1024 sizeUnits

example : size 1023 = "1023 B" := by decide +kernel
example : size 1152 = "1.12 KB" := by decide +kernel
example : size 1048570 = "1023.99 KB" := by decide +kernel

end RobotScript.Text
