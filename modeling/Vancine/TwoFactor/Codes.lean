import Vancine.Lib.Text

/-!
# Codes

Codes of six digits come from an authenticator or from a message; backup codes have eight letters and digits, perhaps
with dashes.
-/

namespace Vancine.TwoFactor

open Lib

/-- `strconv.Atoi` accepts the text: digits, perhaps after a sign. -/
def isAtoi (text : List Char) : Bool :=
  match text with
  | [] => false
  | c :: digits =>
    if c = '+' ∨ c = '-' then !digits.isEmpty && digits.all Char.isDigit else text.all Char.isDigit

/-- `ValidateNumericCode`. -/
def validateNumericCode (code : String) : Option String :=
  let text := code.toList.filter (· ≠ ' ')
  if (String.ofList text).utf8ByteSize = 6 ∧ isAtoi text then some (String.ofList text) else none

def backupCodeLength : ℕ := 8

/-- A code in capitals and without dashes; `toUpper` is `strings.ToUpper`. -/
def cleanBackupCode (toUpper : String → String) (code : String) : String :=
  toUpper (String.ofList (code.toList.filter (· ≠ '-')))

def validateBackupCode (toUpper : String → String) (code : String) : Bool :=
  let cleanCode := cleanBackupCode toUpper code
  cleanCode.utf8ByteSize = backupCodeLength &&
    cleanCode.toList.all fun c => ('A' ≤ c && c ≤ 'Z') || ('0' ≤ c && c ≤ '9')

/-- `NormalizeBackupCode`, of a code that was validated: its characters are bytes. -/
def normalizeBackupCode (toUpper : String → String) (code : String) : String :=
  let cleanCode := cleanBackupCode toUpper code
  if cleanCode.utf8ByteSize = backupCodeLength then
    String.ofList (cleanCode.toList.take 4 ++ '-' :: cleanCode.toList.drop 4)
  else code

end Vancine.TwoFactor
