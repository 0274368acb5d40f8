import ArtsExplorer.App.Models
import ArtsExplorer.Foundations.Regex

/-!
# Sign-up and log-in

`SignUpViewController` and `LogInViewController`, the two screens of the initial navigation
controller that call Auth and go to the home screen.
-/

namespace ArtsExplorer

open Foundations

structure SignUpViewController where
  nameTextField : String := ""
  emailTextField : String := ""
  passwordTextField : String := ""
  /-- The text of `errorLabel`, once `showError` has made it visible. -/
  errorLabel : Option String := none
  deriving DecidableEq

namespace SignUpViewController

variable (s : SignUpViewController)

/-! ### The validators -/

/-- The first character of each block of ten decimal digits (`\d` matches category `Nd`). -/
def decimalZeros : List ℕ :=
  [0x30, 0x660, 0x6F0, 0x7C0, 0x966, 0x9E6, 0xA66, 0xAE6, 0xB66, 0xBE6, 0xC66, 0xCE6, 0xD66, 0xDE6,
   0xE50, 0xED0, 0xF20, 0x1040, 0x1090, 0x17E0, 0x1810, 0x1946, 0x19D0, 0x1A80, 0x1A90, 0x1B50,
   0x1BB0, 0x1C40, 0x1C50, 0xA620, 0xA8D0, 0xA900, 0xA9D0, 0xA9F0, 0xAA50, 0xABF0, 0xFF10, 0x104A0,
   0x10D30, 0x11066, 0x110F0, 0x11136, 0x111D0, 0x112F0, 0x11450, 0x114D0, 0x11650, 0x116C0,
   0x11730, 0x118E0, 0x11950, 0x11C50, 0x11D50, 0x11DA0, 0x16A60, 0x16B50, 0x1D7CE, 0x1D7D8,
   0x1D7E2, 0x1D7EC, 0x1D7F6, 0x1E140, 0x1E2F0, 0x1E950, 0x1FBF0]

/-- `\d`. -/
def isDecimalDigit (c : Char) : Bool :=
  decimalZeros.any fun z => z ≤ c.toNat && c.toNat < z + 10

/-- `[A-Za-z]`. -/
def isLatinLetter (c : Char) : Bool := ('A' ≤ c && c ≤ 'Z') || ('a' ≤ c && c ≤ 'z')

/-- `.`, which matches no line terminator. -/
def isNotLineTerminator (c : Char) : Bool :=
  let n := c.toNat
  !((0xA ≤ n && n ≤ 0xD) || n == 0x85 || n == 0x2028 || n == 0x2029)

/-- `[$@$!%*#?&]`. -/
def isSpecial (c : Char) : Bool := c ∈ ['$', '@', '!', '%', '*', '#', '?', '&']

/-- `(?=.*[p])`. -/
def contains (p : Char → Bool) : Regex :=
  .ahead (.seq (.rep (.cls isNotLineTerminator) 0 none) (.cls p))

/-- `^(?=.*[A-Za-z])(?=.*\d)(?=.*[$@$!%*#?&])[A-Za-z\d$@$!%*#?&]{8,}$`. -/
def passRegex : Regex :=
  .seqs [.start, contains isLatinLetter, contains isDecimalDigit, contains isSpecial,
    .rep (.cls fun c => isLatinLetter c || isDecimalDigit c || isSpecial c) 8 none] .stop

/-- `[A-Z0-9a-z._%+-]`. -/
def isLocalChar (c : Char) : Bool :=
  isLatinLetter c || ('0' ≤ c && c ≤ '9') || c ∈ ['.', '_', '%', '+', '-']

/-- `[A-Za-z0-9.-]`. -/
def isDomainChar (c : Char) : Bool :=
  isLatinLetter c || ('0' ≤ c && c ≤ '9') || c ∈ ['.', '-']

/-- `[A-Z0-9a-z._%+-]+@[A-Za-z0-9.-]+\.[A-Za-z]{2,64}`. -/
def emailRegex : Regex :=
  .seqs [.rep (.cls isLocalChar) 1 none, .cls (· == '@'), .rep (.cls isDomainChar) 1 none,
    .cls (· == '.')] (.rep (.cls isLatinLetter) 2 (some 64))

/-- `validatePassword(input:)`. -/
def validatePassword (input : String) : Bool := passRegex.isMatch input

/-- `components(separatedBy: "@")`. -/
def emailParts (inputString : String) : List String :=
  (inputString.toList.splitOn '@').map String.ofList

/-- `validateSchoolEmail(inputString:)`. -/
def validateSchoolEmail (inputString : String) : Except Fault Bool :=
  if '@' ∈ inputString.toList then
    match (emailParts inputString)[1]? with
    | some emailSuffix =>
      .ok (["cis.edu.hk", "alumni.cis.edu.hk", "student.cis.edu.hk"].contains emailSuffix)
    | none => .error (.trap .indexOutOfRange)
  else .ok false

/-- `validateEmail(input:)`. -/
def validateEmail (input : String) : Except Fault Bool := do
  let school ← validateSchoolEmail input
  if school then return emailRegex.isMatch input else return false

/-- `validateFields()`. -/
def validateFields : Except Fault (Option String) :=
  let passwordText := trimmed s.passwordTextField
  let emailText := trimmed s.emailTextField
  if trimmed s.nameTextField = "" ∨ emailText = "" ∨ passwordText = "" then
    .ok (some "Please fill in all fields.")
  else if validatePassword passwordText = false then
    .ok (some
      "Password should contain a letter, number and special character, and at least 8 characters.")
  else do
    let valid ← validateEmail emailText
    return if valid then none else some "Please enter a valid email."

/-! ### The handlers -/

/-- `showError(message:)`. -/
def showError (message : String) : SignUpViewController := { s with errorLabel := some message }

/-- `signUpPressed(_:)`. -/
def signUpPressed : Except Fault (After SignUpViewController) := do
  let error ← s.validateFields
  match error with
  | some error => return (s.showError error, [])
  | none =>
    let nameText := trimmed s.nameTextField
    let passwordText := trimmed s.passwordTextField
    let emailText := trimmed s.emailTextField
    return (s, [.request (.createUser emailText passwordText (.userCreated nameText))])

/-- The completion of `createUser`; `goToHome` follows both branches. -/
def createdReply (nameText : String) : Except String String → After SignUpViewController
  | .error _ => (s.showError "There was an error creating the account.", [.goToHome])
  | .ok uid => (s, [.request (.setData .users uid (userDocument uid nameText) .userSet), .goToHome])

/-- The completion of `setData`. -/
def setReply : Option String → After SignUpViewController
  | some _ => (s.showError "User data could not be saved.", [])
  | none => (s, [])

end SignUpViewController

structure LogInViewController where
  emailTextField : String := ""
  passwordTextField : String := ""
  errorLabel : Option String := none
  deriving DecidableEq

namespace LogInViewController

variable (s : LogInViewController)

/-- `validateFields()`. -/
def validateFields : Option String :=
  let passwordText := trimmed s.passwordTextField
  let emailText := trimmed s.emailTextField
  if emailText = "" ∨ passwordText = "" then some "Please fill in all fields." else none

/-- `showError(message:)`. -/
def showError (message : String) : LogInViewController := { s with errorLabel := some message }

/-- `logInPressed(_:)`. -/
def logInPressed : After LogInViewController :=
  match s.validateFields with
  | some error => (s.showError error, [])
  | none =>
    let passwordText := trimmed s.passwordTextField
    let emailText := trimmed s.emailTextField
    (s, [.request (.signIn emailText passwordText .signedIn)])

/-- The completion of `signIn`. -/
def signedInReply : Except String String → After LogInViewController
  | .error errorMessage => (s.showError errorMessage, [])
  | .ok _ => (s, [.goToHome])

end LogInViewController

end ArtsExplorer
