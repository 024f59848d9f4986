import Argmin.Lib.Calendar
import Argmin.Policy.Language

/-!
# Condition operators

One definition per condition operator, and the table of operators.  The operators on texts are one
definition (`evalText`) with the test on a single value, how a set of values is tested, and what an
absent value gives.
-/

namespace Argmin.Policy

open Calendar

/-- Value presented to a condition operator by the evaluator. -/
inductive ActualValue
  | present (value : Text)
  | presentValues (values : List Text)
  | sourceIp (addr : IpAddr)
  | numeric (value : Nat)
  | epochSeconds (value : Nat)
  | absent

inductive ConditionMatchResult
  | matches
  | noMatch
  | acceptedButNotEvaluable
  | inputUnavailable
  | unsupported
deriving DecidableEq, Repr

def ConditionMatchResult.ofBool (holds : Bool) : ConditionMatchResult :=
  if holds then .matches else .noMatch

theorem ofBool_eq_matches {b : Bool} : ConditionMatchResult.ofBool b = .matches ↔ b = true := by
  cases b <;> decide

inductive ConditionOpKind
  | arnEquals
  | binaryEquals
  | bool
  | dateEquals
  | dateNotEquals
  | dateLessThan
  | dateLessThanEquals
  | dateGreaterThan
  | dateGreaterThanEquals
  | stringEquals
  | stringEqualsIgnoreCase
  | stringNotEquals
  | stringNotEqualsIgnoreCase
  | stringLike
  | stringNotLike
  | numericEquals
  | numericNotEquals
  | numericLessThan
  | numericLessThanEquals
  | numericGreaterThan
  | numericGreaterThanEquals
  | ipAddress
  | notIpAddress
  | null
deriving DecidableEq, Repr

inductive ConditionSetQualifier
  | none
  | forAllValues
  | forAnyValue
deriving DecidableEq, Repr

/-- One row of the condition operator table. -/
structure ConditionOpDef where
  name : Text
  setQualifier : ConditionSetQualifier
  kind : ConditionOpKind
  evaluate : List PolicyValue → ActualValue → ConditionMatchResult
  evaluableOnEvaluableObjectActions : Bool

namespace ConditionOpKind

def isString : ConditionOpKind → Bool
  | stringEquals | stringEqualsIgnoreCase | stringNotEquals | stringNotEqualsIgnoreCase
  | stringLike | stringNotLike | null => true
  | _ => false

def supportsPolicyVariables : ConditionOpKind → Bool
  | stringEquals | stringEqualsIgnoreCase | stringNotEquals | stringNotEqualsIgnoreCase
  | stringLike | stringNotLike => true
  | _ => false

def isBinary : ConditionOpKind → Bool
  | binaryEquals => true
  | _ => false

def isDate : ConditionOpKind → Bool
  | dateEquals | dateNotEquals | dateLessThan | dateLessThanEquals | dateGreaterThan
  | dateGreaterThanEquals | null => true
  | _ => false

def isIp : ConditionOpKind → Bool
  | ipAddress | notIpAddress => true
  | _ => false

def isNumeric : ConditionOpKind → Bool
  | numericEquals | numericNotEquals | numericLessThan | numericLessThanEquals
  | numericGreaterThan | numericGreaterThanEquals | null => true
  | _ => false

end ConditionOpKind

/-! ### Operators on texts -/

/-- `holds` tests one value.  Without a qualifier a set of values does not match; an absent value
gives `whenAbsent`. -/
def evalText (holds : Text → Bool) (qualifier : ConditionSetQualifier)
    (whenAbsent : ConditionMatchResult) : ActualValue → ConditionMatchResult
  | .present actual => .ofBool (holds actual)
  | .presentValues actuals =>
    match qualifier with
    | .none => .noMatch
    | .forAllValues => .ofBool (actuals.all holds)
    | .forAnyValue => .ofBool (actuals.any holds)
  | .sourceIp _ | .numeric _ | .epochSeconds _ => .noMatch
  | .absent => whenAbsent

def policyStringEquals (expected : PolicyValue) (actual : Text) : Bool :=
  expected.value == actual

variable (operands : List PolicyValue)

def equalsAny (actual : Text) : Bool :=
  operands.any (policyStringEquals · actual)

def likeAny (actual : Text) : Bool :=
  operands.any (policyValueWildcardMatches · actual)

def boolOperandMatches (actual : Text) : Bool :=
  operands.any (eqIgnoreAsciiCase ·.value actual)

section Texts

variable (operands : List PolicyValue)

def evalBool := evalText (boolOperandMatches operands) .none .noMatch

def evalBoolIfExists := evalText (boolOperandMatches operands) .none .matches

def evalForAllValuesBool := evalText (boolOperandMatches operands) .forAllValues .matches

def evalForAnyValueBool := evalText (boolOperandMatches operands) .forAnyValue .noMatch

def evalStringEquals := evalText (equalsAny operands) .none .noMatch

def evalForAllValuesStringEquals := evalText (equalsAny operands) .forAllValues .matches

def evalForAnyValueStringEquals := evalText (equalsAny operands) .forAnyValue .noMatch

def evalStringEqualsIfExists := evalText (equalsAny operands) .none .matches

/-! The negated operators hold of an absent value, with or without `IfExists`. -/

def evalStringNotEquals := evalText (!equalsAny operands ·) .none .matches

def evalForAllValuesStringNotEquals := evalText (!equalsAny operands ·) .forAllValues .matches

def evalForAnyValueStringNotEquals := evalText (!equalsAny operands ·) .forAnyValue .noMatch

def evalStringLike := evalText (likeAny operands) .none .noMatch

def evalForAllValuesStringLike := evalText (likeAny operands) .forAllValues .matches

def evalForAnyValueStringLike := evalText (likeAny operands) .forAnyValue .noMatch

def evalStringLikeIfExists := evalText (likeAny operands) .none .matches

def evalStringNotLike := evalText (!likeAny operands ·) .none .matches

def evalForAllValuesStringNotLike := evalText (!likeAny operands ·) .forAllValues .matches

def evalForAnyValueStringNotLike := evalText (!likeAny operands ·) .forAnyValue .noMatch

end Texts

section LibraryTexts

variable (lib : Libraries) (operands : List PolicyValue)

def policyStringEqualsIgnoreCase (expected : PolicyValue) (actual : Text) : Bool :=
  expected.value == actual || lib.toLowercase expected.value == lib.toLowercase actual

def equalsAnyIgnoreCase (actual : Text) : Bool :=
  operands.any (policyStringEqualsIgnoreCase lib · actual)

def evalStringEqualsIgnoreCase := evalText (equalsAnyIgnoreCase lib operands) .none .noMatch

def evalForAllValuesStringEqualsIgnoreCase :=
  evalText (equalsAnyIgnoreCase lib operands) .forAllValues .matches

def evalForAnyValueStringEqualsIgnoreCase :=
  evalText (equalsAnyIgnoreCase lib operands) .forAnyValue .noMatch

def evalStringEqualsIgnoreCaseIfExists :=
  evalText (equalsAnyIgnoreCase lib operands) .none .matches

def evalStringNotEqualsIgnoreCase := evalText (!equalsAnyIgnoreCase lib operands ·) .none .matches

def evalForAllValuesStringNotEqualsIgnoreCase :=
  evalText (!equalsAnyIgnoreCase lib operands ·) .forAllValues .matches

def evalForAnyValueStringNotEqualsIgnoreCase :=
  evalText (!equalsAnyIgnoreCase lib operands ·) .forAnyValue .noMatch

def binaryValueMatches (actual : Text) : Bool :=
  match lib.decodeBase64 actual with
  | none => false
  | some actual => (operands.filterMap (lib.decodeBase64 ·.value)).any (· == actual)

def evalBinaryEquals := evalText (binaryValueMatches lib operands) .none .noMatch

def evalForAllValuesBinaryEquals :=
  evalText (binaryValueMatches lib operands) .forAllValues .matches

def evalForAnyValueBinaryEquals := evalText (binaryValueMatches lib operands) .forAnyValue .noMatch

def evalBinaryEqualsIfExists := evalText (binaryValueMatches lib operands) .none .matches

end LibraryTexts

/-! ### Dates -/

inductive Comparison
  | equals
  | notEquals
  | lessThan
  | lessThanEquals
  | greaterThan
  | greaterThanEquals
deriving DecidableEq

def isLeapYear (year : Int) : Bool :=
  (year % 4 == 0 && year % 100 != 0) || year % 400 == 0

def daysInMonth (year : Int) (month : Nat) : Nat :=
  match month with
  | 1 | 3 | 5 | 7 | 8 | 10 | 12 => 31
  | 4 | 6 | 9 | 11 => 30
  | 2 => if isLeapYear year then 29 else 28
  | _ => 0

variable (value : Text)

def parseFixedU32 : Option Nat :=
  if value.all Char.isDigit then Text.readNat (2 ^ 32) value else none

/-- Days since the epoch, of a date of the proleptic Gregorian calendar. -/
def daysFromCivil (year : Int) (month day : Nat) : Option Int :=
  if month < 2 ^ 31 ∧ day < 2 ^ 31 then
    some (civilDays (m := Id) (wrapping 32) (wrapping 32) year month day)
  else none

/-- What stands before the offset, and the offset in seconds. -/
def splitDatetimeOffset : Option (Text × Int) :=
  match stripSuffix value ['Z'] with
  | some datetime => some (datetime, 0)
  | none => do
    let (date, time) ← splitOnce ['T'] value
    let isSign (c : Char) : Bool := c == '+' || c == '-'
    -- the last sign after the `T`
    match time.reverse.dropWhile (!isSign ·) with
    | [] => none
    | sign :: before =>
      let (hours, minutes) ← splitOnce [':'] (time.reverse.takeWhile (!isSign ·)).reverse
      if byteLength hours ≠ 2 ∨ byteLength minutes ≠ 2 then none
      else do
        let hours ← parseFixedU32 hours
        let minutes ← parseFixedU32 minutes
        if 23 < hours ∨ 59 < minutes then none
        else
          let seconds : Int := hours * 3600 + minutes * 60
          some (date ++ 'T' :: before.reverse, if sign = '+' then seconds else -seconds)

def parseDate : Option (Int × Nat × Nat) :=
  match value.splitOn '-' with
  | [year, month, day] =>
    if byteLength year ≠ 4 ∨ byteLength month ≠ 2 ∨ byteLength day ≠ 2 then none
    else do
      let year ← parseFixedU32 year
      let month ← parseFixedU32 month
      let day ← parseFixedU32 day
      if year = 0 ∨ ¬(1 ≤ month ∧ month ≤ 12) ∨ day = 0 ∨ daysInMonth year month < day then none
      else some (year, month, day)
  | _ => none

def parseSecondAndNanos : Option (Nat × Nat) :=
  let (second, fraction) := (splitOnce ['.'] value).getD (value, [])
  if byteLength second ≠ 2 then none
  else do
    let second ← parseFixedU32 second
    if fraction = [] then some (second, 0)
    else if 9 < byteLength fraction ∨ ¬fraction.all Char.isDigit then none
    else some (second, Nat.ofDigitChars 10 (fraction.rightpad 9 '0') 0)

def parseTime : Option (Nat × Nat × Nat × Nat) :=
  match value.splitOn ':' with
  | [hour, minute, second] =>
    if byteLength hour ≠ 2 ∨ byteLength minute ≠ 2 then none
    else do
      let (second, nanos) ← parseSecondAndNanos second
      let hour ← parseFixedU32 hour
      let minute ← parseFixedU32 minute
      if 23 < hour ∨ 59 < minute ∨ 59 < second then none
      else some (hour, minute, second, nanos)
  | _ => none

def parseDateEpochNanos : Option Int := do
  let (datetime, offsetSeconds) ← splitDatetimeOffset value
  let (date, time) ← splitOnce ['T'] datetime
  let (year, month, day) ← parseDate date
  let (hour, minute, second, nanos) ← parseTime time
  let days ← daysFromCivil year month day
  let seconds := days * 86400 + hour * 3600 + minute * 60 + second - offsetSeconds
  some (seconds * 1000000000 + nanos)

def evalDateOperands (actualNanos : Int) (comparison : Comparison) : ConditionMatchResult :=
  let parsed := operands.filterMap (parseDateEpochNanos ·.value)
  .ofBool <| match comparison with
    | .equals => parsed.any (actualNanos = ·)
    | .notEquals => parsed.all (actualNanos ≠ ·)
    | .lessThan => parsed.any (actualNanos < ·)
    | .lessThanEquals => parsed.any (actualNanos ≤ ·)
    | .greaterThan => parsed.any (· < actualNanos)
    | .greaterThanEquals => parsed.any (· ≤ actualNanos)

def evalDateComparison (comparison : Comparison) (ifExists : Bool) (operands : List PolicyValue) :
    ActualValue → ConditionMatchResult
  | .epochSeconds actual => evalDateOperands operands (actual * 1000000000) comparison
  | .present actual =>
    match parseDateEpochNanos actual with
    | none => .noMatch
    | some actual => evalDateOperands operands actual comparison
  | .absent => if ifExists ∨ comparison = .notEquals then .matches else .noMatch
  | .presentValues _ | .sourceIp _ | .numeric _ => .noMatch

def evalDateEquals := evalDateComparison .equals false

def evalDateEqualsIfExists := evalDateComparison .equals true

def evalDateNotEquals := evalDateComparison .notEquals false

def evalDateLessThan := evalDateComparison .lessThan false

def evalDateLessThanIfExists := evalDateComparison .lessThan true

def evalDateLessThanEquals := evalDateComparison .lessThanEquals false

def evalDateLessThanEqualsIfExists := evalDateComparison .lessThanEquals true

def evalDateGreaterThan := evalDateComparison .greaterThan false

def evalDateGreaterThanIfExists := evalDateComparison .greaterThan true

def evalDateGreaterThanEquals := evalDateComparison .greaterThanEquals false

def evalDateGreaterThanEqualsIfExists := evalDateComparison .greaterThanEquals true

/-! ### Numbers -/

section Numbers

variable (lib : Libraries)

def parseNumeric (value : Text) : Option lib.F64 :=
  (lib.parseF64 value).filter lib.isFinite

def evalNumericOperands (operands : List PolicyValue) (actual : lib.F64) (comparison : Comparison) :
    ConditionMatchResult :=
  let parsed := operands.filterMap (parseNumeric lib ·.value)
  .ofBool <| match comparison with
    | .equals => parsed.any (lib.totalCmpIsEq actual)
    | .notEquals => parsed.all (!lib.totalCmpIsEq actual ·)
    | .lessThan => parsed.any (lib.lt actual)
    | .lessThanEquals => parsed.any (lib.le actual)
    | .greaterThan => parsed.any (lib.lt · actual)
    | .greaterThanEquals => parsed.any (lib.le · actual)

def evalNumericComparison (comparison : Comparison) (ifExists : Bool)
    (operands : List PolicyValue) : ActualValue → ConditionMatchResult
  | .present actual =>
    match parseNumeric lib actual with
    | none => .noMatch
    | some actual => evalNumericOperands lib operands actual comparison
  | .numeric actual | .epochSeconds actual =>
    evalNumericOperands lib operands (lib.ofU64 actual) comparison
  | .presentValues _ | .sourceIp _ => .noMatch
  | .absent => if ifExists ∨ comparison = .notEquals then .matches else .noMatch

def evalNumericEquals := evalNumericComparison lib .equals false

def evalNumericEqualsIfExists := evalNumericComparison lib .equals true

def evalNumericNotEquals := evalNumericComparison lib .notEquals false

def evalNumericLessThan := evalNumericComparison lib .lessThan false

def evalNumericLessThanIfExists := evalNumericComparison lib .lessThan true

def evalNumericLessThanEquals := evalNumericComparison lib .lessThanEquals false

def evalNumericLessThanEqualsIfExists := evalNumericComparison lib .lessThanEquals true

def evalNumericGreaterThan := evalNumericComparison lib .greaterThan false

def evalNumericGreaterThanIfExists := evalNumericComparison lib .greaterThan true

def evalNumericGreaterThanEquals := evalNumericComparison lib .greaterThanEquals false

def evalNumericGreaterThanEqualsIfExists := evalNumericComparison lib .greaterThanEquals true

end Numbers

/-! ### Addresses -/

def prefixBits {w : Nat} (value : BitVec w) (prefixLength : Nat) : BitVec w :=
  if prefixLength = 0 then 0 else value &&& (BitVec.allOnes w <<< (w - prefixLength))

def ipAddrMatchesCidr (actual network : IpAddr) (prefixLength : Nat) : Bool :=
  match actual, network with
  | .v4 actual, .v4 network => prefixBits actual prefixLength == prefixBits network prefixLength
  | .v6 actual, .v6 network => prefixBits actual prefixLength == prefixBits network prefixLength
  | .v4 _, .v6 _ | .v6 _, .v4 _ => false

def IpAddr.maxPrefix : IpAddr → Nat
  | .v4 _ => 32
  | .v6 _ => 128

section Addresses

variable (lib : Libraries)

def parseIpAddrOrCidr (value : Text) : Option (IpAddr × Nat) :=
  match splitOnce ['/'] value with
  | some (addr, bits) => do
    let addr ← lib.parseIpAddr addr
    let bits ← Text.readNat (2 ^ 8) bits
    if bits ≤ addr.maxPrefix then some (addr, bits) else none
  | none => do
    let addr ← lib.parseIpAddr value
    some (addr, addr.maxPrefix)

/-- `equals` is whether the address has to be in an operand's network, or in none. -/
def evalIpAddressComparison (equals ifExists : Bool) (operands : List PolicyValue) :
    ActualValue → ConditionMatchResult
  | .sourceIp actual =>
    let holds := (operands.filterMap (parseIpAddrOrCidr lib ·.value)).any fun (network, bits) =>
      ipAddrMatchesCidr actual network bits
    .ofBool (holds == equals)
  | .absent => if ifExists ∨ equals = false then .matches else .noMatch
  | .present _ | .presentValues _ | .numeric _ | .epochSeconds _ => .ofBool (false == equals)

def evalIpAddress := evalIpAddressComparison lib true false

def evalNotIpAddress := evalIpAddressComparison lib false false

def evalIpAddressIfExists := evalIpAddressComparison lib true true

variable (operands : List PolicyValue)

def evalForAllValuesIpAddress : ActualValue → ConditionMatchResult
  | .absent => .matches
  | actual => evalIpAddress lib operands actual

def evalForAnyValueIpAddress : ActualValue → ConditionMatchResult
  | .absent => .noMatch
  | actual => evalIpAddress lib operands actual

def evalForAllValuesNotIpAddress : ActualValue → ConditionMatchResult
  | .absent => .matches
  | actual => evalNotIpAddress lib operands actual

def evalForAnyValueNotIpAddress : ActualValue → ConditionMatchResult
  | .absent => .noMatch
  | actual => evalNotIpAddress lib operands actual

end Addresses

/-! ### The table -/

def evalNull (actual : ActualValue) : ConditionMatchResult :=
  let isNull := match actual with
    | .absent => true
    | _ => false
  .ofBool <| operands.any fun expected =>
    if expected.value = "true" then isNull
    else if expected.value = "false" then !isNull
    else false

section Table

variable (lib : Libraries)

def conditionOps : List ConditionOpDef :=
  [⟨"Bool", .none, .bool, evalBool, true⟩,
    ⟨"BoolIfExists", .none, .bool, evalBoolIfExists, true⟩,
    ⟨"ForAllValues:Bool", .forAllValues, .bool, evalForAllValuesBool, true⟩,
    ⟨"ForAnyValue:Bool", .forAnyValue, .bool, evalForAnyValueBool, true⟩,
    ⟨"BinaryEquals", .none, .binaryEquals, evalBinaryEquals lib, true⟩,
    ⟨"ForAllValues:BinaryEquals", .forAllValues, .binaryEquals,
      evalForAllValuesBinaryEquals lib, true⟩,
    ⟨"ForAnyValue:BinaryEquals", .forAnyValue, .binaryEquals,
      evalForAnyValueBinaryEquals lib, true⟩,
    ⟨"BinaryEqualsIfExists", .none, .binaryEquals, evalBinaryEqualsIfExists lib, true⟩,
    ⟨"DateEquals", .none, .dateEquals, evalDateEquals, true⟩,
    ⟨"DateEqualsIfExists", .none, .dateEquals, evalDateEqualsIfExists, true⟩,
    ⟨"DateNotEquals", .none, .dateNotEquals, evalDateNotEquals, true⟩,
    ⟨"DateNotEqualsIfExists", .none, .dateNotEquals, evalDateNotEquals, true⟩,
    ⟨"DateLessThan", .none, .dateLessThan, evalDateLessThan, true⟩,
    ⟨"DateLessThanIfExists", .none, .dateLessThan, evalDateLessThanIfExists, true⟩,
    ⟨"DateLessThanEquals", .none, .dateLessThanEquals, evalDateLessThanEquals, true⟩,
    ⟨"DateLessThanEqualsIfExists", .none, .dateLessThanEquals,
      evalDateLessThanEqualsIfExists, true⟩,
    ⟨"DateGreaterThan", .none, .dateGreaterThan, evalDateGreaterThan, true⟩,
    ⟨"DateGreaterThanIfExists", .none, .dateGreaterThan, evalDateGreaterThanIfExists, true⟩,
    ⟨"DateGreaterThanEquals", .none, .dateGreaterThanEquals, evalDateGreaterThanEquals, true⟩,
    ⟨"DateGreaterThanEqualsIfExists", .none, .dateGreaterThanEquals,
      evalDateGreaterThanEqualsIfExists, true⟩,
    ⟨"ArnEquals", .none, .arnEquals, evalStringEquals, true⟩,
    ⟨"StringEquals", .none, .stringEquals, evalStringEquals, true⟩,
    ⟨"ForAllValues:StringEquals", .forAllValues, .stringEquals, evalForAllValuesStringEquals, true⟩,
    ⟨"ForAnyValue:StringEquals", .forAnyValue, .stringEquals, evalForAnyValueStringEquals, true⟩,
    ⟨"StringEqualsIfExists", .none, .stringEquals, evalStringEqualsIfExists, true⟩,
    ⟨"StringEqualsIgnoreCase", .none, .stringEqualsIgnoreCase,
      evalStringEqualsIgnoreCase lib, true⟩,
    ⟨"ForAllValues:StringEqualsIgnoreCase", .forAllValues, .stringEqualsIgnoreCase,
      evalForAllValuesStringEqualsIgnoreCase lib, true⟩,
    ⟨"ForAnyValue:StringEqualsIgnoreCase", .forAnyValue, .stringEqualsIgnoreCase,
      evalForAnyValueStringEqualsIgnoreCase lib, true⟩,
    ⟨"StringEqualsIgnoreCaseIfExists", .none, .stringEqualsIgnoreCase,
      evalStringEqualsIgnoreCaseIfExists lib, true⟩,
    ⟨"StringNotEquals", .none, .stringNotEquals, evalStringNotEquals, true⟩,
    ⟨"ForAllValues:StringNotEquals", .forAllValues, .stringNotEquals,
      evalForAllValuesStringNotEquals, true⟩,
    ⟨"ForAnyValue:StringNotEquals", .forAnyValue, .stringNotEquals,
      evalForAnyValueStringNotEquals, true⟩,
    ⟨"StringNotEqualsIfExists", .none, .stringNotEquals, evalStringNotEquals, true⟩,
    ⟨"StringNotEqualsIgnoreCase", .none, .stringNotEqualsIgnoreCase,
      evalStringNotEqualsIgnoreCase lib, true⟩,
    ⟨"ForAllValues:StringNotEqualsIgnoreCase", .forAllValues, .stringNotEqualsIgnoreCase,
      evalForAllValuesStringNotEqualsIgnoreCase lib, true⟩,
    ⟨"ForAnyValue:StringNotEqualsIgnoreCase", .forAnyValue, .stringNotEqualsIgnoreCase,
      evalForAnyValueStringNotEqualsIgnoreCase lib, true⟩,
    ⟨"StringNotEqualsIgnoreCaseIfExists", .none, .stringNotEqualsIgnoreCase,
      evalStringNotEqualsIgnoreCase lib, true⟩,
    ⟨"StringLike", .none, .stringLike, evalStringLike, true⟩,
    ⟨"ForAllValues:StringLike", .forAllValues, .stringLike, evalForAllValuesStringLike, true⟩,
    ⟨"ForAnyValue:StringLike", .forAnyValue, .stringLike, evalForAnyValueStringLike, true⟩,
    ⟨"StringLikeIfExists", .none, .stringLike, evalStringLikeIfExists, true⟩,
    ⟨"StringNotLike", .none, .stringNotLike, evalStringNotLike, true⟩,
    ⟨"ForAllValues:StringNotLike", .forAllValues, .stringNotLike,
      evalForAllValuesStringNotLike, true⟩,
    ⟨"ForAnyValue:StringNotLike", .forAnyValue, .stringNotLike, evalForAnyValueStringNotLike, true⟩,
    ⟨"StringNotLikeIfExists", .none, .stringNotLike, evalStringNotLike, true⟩,
    ⟨"NumericEquals", .none, .numericEquals, evalNumericEquals lib, true⟩,
    ⟨"NumericEqualsIfExists", .none, .numericEquals, evalNumericEqualsIfExists lib, true⟩,
    ⟨"NumericNotEquals", .none, .numericNotEquals, evalNumericNotEquals lib, true⟩,
    ⟨"NumericNotEqualsIfExists", .none, .numericNotEquals, evalNumericNotEquals lib, true⟩,
    ⟨"NumericLessThan", .none, .numericLessThan, evalNumericLessThan lib, true⟩,
    ⟨"NumericLessThanIfExists", .none, .numericLessThan, evalNumericLessThanIfExists lib, true⟩,
    ⟨"NumericLessThanEquals", .none, .numericLessThanEquals, evalNumericLessThanEquals lib, true⟩,
    ⟨"NumericLessThanEqualsIfExists", .none, .numericLessThanEquals,
      evalNumericLessThanEqualsIfExists lib, true⟩,
    ⟨"NumericGreaterThan", .none, .numericGreaterThan, evalNumericGreaterThan lib, true⟩,
    ⟨"NumericGreaterThanIfExists", .none, .numericGreaterThan,
      evalNumericGreaterThanIfExists lib, true⟩,
    ⟨"NumericGreaterThanEquals", .none, .numericGreaterThanEquals,
      evalNumericGreaterThanEquals lib, true⟩,
    ⟨"NumericGreaterThanEqualsIfExists", .none, .numericGreaterThanEquals,
      evalNumericGreaterThanEqualsIfExists lib, true⟩,
    ⟨"IpAddress", .none, .ipAddress, evalIpAddress lib, true⟩,
    ⟨"ForAllValues:IpAddress", .forAllValues, .ipAddress, evalForAllValuesIpAddress lib, true⟩,
    ⟨"ForAnyValue:IpAddress", .forAnyValue, .ipAddress, evalForAnyValueIpAddress lib, true⟩,
    ⟨"IpAddressIfExists", .none, .ipAddress, evalIpAddressIfExists lib, true⟩,
    ⟨"NotIpAddress", .none, .notIpAddress, evalNotIpAddress lib, true⟩,
    ⟨"ForAllValues:NotIpAddress", .forAllValues, .notIpAddress,
      evalForAllValuesNotIpAddress lib, true⟩,
    ⟨"ForAnyValue:NotIpAddress", .forAnyValue, .notIpAddress,
      evalForAnyValueNotIpAddress lib, true⟩,
    ⟨"NotIpAddressIfExists", .none, .notIpAddress, evalNotIpAddress lib, true⟩,
    ⟨"Null", .none, .null, evalNull, true⟩]

def lookupOp (name : Text) : Option ConditionOpDef :=
  (conditionOps lib).find? (·.name == name)

end Table

end Argmin.Policy
