import Polymorph.Errors
import Polymorph.Host

/-!
# Transforms

The registered transforms and the source transforms themselves: copying, trimming, and the parsing
of integers, decimals and datetimes.
-/

set_option autoImplicit false

namespace Polymorph

/-- Where a transform runs. -/
inductive TransformStage where
  | source
  | destination
  | transport
deriving DecidableEq, Repr

/-- `TRANSFORM_SPECS[name].stage` -/
def transformStage? (name : String) : Option TransformStage :=
  if name ∈ ["copy", "trim", "parse_integer", "parse_decimal", "parse_datetime"] then some .source
  else if name = "opaque_forward" then some .transport
  else if name = "lookup_foreign_key" then some .destination
  else none

/-- `is_known_transform` -/
def isKnownTransform (name : String) : Bool := (transformStage? name).isSome

/-- `transform_stage` -/
def transformStage (name : String) : Except Exn TransformStage :=
  match transformStage? name with
  | some stage => .ok stage
  | none => .error (.polymorphError ("unknown transform: " ++ name))

/-- `sys.get_int_max_str_digits()` -/
def maxStrDigits : Nat := 4300

namespace PyText

/-- Replacement of `pattern`, which starts with `first`, with `fuel` bounding the text's length. -/
def replaceFuel (pattern replacement : PyText) : Nat → PyText → PyText
  | 0, text => text
  | fuel + 1, text =>
      match text with
      | [] => []
      | c :: rest =>
          if pattern.isPrefixOf (c :: rest) then
            replacement ++ replaceFuel pattern replacement fuel ((c :: rest).drop pattern.length)
          else c :: replaceFuel pattern replacement fuel rest

/-- `text.replace(pattern, replacement)`; an empty pattern matches around every character. -/
def replace (text pattern replacement : PyText) : PyText :=
  if pattern.isEmpty then replacement ++ text.flatMap fun c => c :: replacement
  else replaceFuel pattern replacement text.length text

/-- The value of decimal digits, or `none` when a character is not one of `[0-9]`. -/
def digits? : PyText → Option (List Nat)
  | [] => some []
  | .scalar c :: rest =>
      if c.isDigit then (digits? rest).map fun ds => (c.toNat - 48) :: ds else none
  | .surrogate _ :: _ => none

end PyText

/-- `value is None or value == ""` -/
def isBlankValue : PyValue → Bool
  | .none => true
  | .str text => text.isEmpty
  | _ => false

section Functions

variable (H : Host)

/-- `text.strip()` of a Python text. -/
def stripText (text : PyText) : PyText :=
  let isSpace : PyChar → Bool := fun
    | .scalar c => H.isSpace c
    | .surrogate _ => false
  ((text.dropWhile isSpace).reverse.dropWhile isSpace).reverse

/-- `str(value)` -/
def strText : PyValue → PyText
  | .str text => text
  | value => H.strOfValue value

/-- `_trim` -/
def trim : PyValue → PyValue
  | .str text => .str (stripText H text)
  | value => value

/-- `int(text, 10)` of a text that `[+-]?[0-9]+` matches; `none` where it does not match. -/
def integerOfText (text : PyText) : Except Exn Int :=
  let (negative, body) : Bool × PyText :=
    match text with
    | .scalar '-' :: rest => (true, rest)
    | .scalar '+' :: rest => (false, rest)
    | _ => (false, text)
  match PyText.digits? body with
  | none => .error (.polymorphError "integer parsing failed")
  | some digits =>
      if digits.isEmpty then .error (.polymorphError "integer parsing failed")
      else if maxStrDigits < digits.length then
        .error (.valueError "Exceeds the limit for integer string conversion")
      else
        let magnitude : Int := digits.foldl (fun n d => 10 * n + d) 0
        .ok (if negative then -magnitude else magnitude)

/-- `_parse_integer` -/
def parseInteger (value : PyValue) : Except Exn PyValue :=
  if isBlankValue value then .ok .none
  else
    match value with
    | .bool _ => .error (.polymorphError "integer parsing rejected a boolean")
    | .int z => .ok (.int z)
    | .decimal d =>
        match d.toInt? with
        | some z => .ok (.int z)
        | none => .error (.polymorphError "integer parsing failed")
    | .float x =>
        match x.toInt? with
        | some z => .ok (.int z)
        | none => .error (.polymorphError "integer parsing failed")
    | .str text => (integerOfText (stripText H text)).map .int
    | _ => .error (.polymorphError "integer parsing failed")

/-- `_parse_decimal` -/
def parseDecimal (value : PyValue) (params : List (String × String)) : Except Exn PyValue :=
  if isBlankValue value then .ok .none
  else
    match value with
    | .decimal d => .ok (.decimal d)
    | value =>
        let decimalSep := (JsonText.dictGet "decimal_separator" params).getD "."
        let thousandsSep := (JsonText.dictGet "thousands_separator" params).getD ","
        let text := stripText H (strText H value)
        let text :=
          if thousandsSep.isEmpty then text else text.replace (PyText.ofString thousandsSep) []
        let text :=
          if decimalSep = "." then text
          else text.replace (PyText.ofString decimalSep) (PyText.ofString ".")
        match H.decimalOfStr text with
        | some d => .ok (.decimal d)
        | none => .error (.polymorphError "decimal parsing failed")

/-- `_parse_datetime` -/
def parseDatetime (value : PyValue) (params : List (String × String)) : Except Exn PyValue :=
  if isBlankValue value then .ok .none
  else
    match value with
    | .datetime d => .ok (.datetime d)
    | value =>
        let parsed :=
          match JsonText.dictGet "format" params with
          | some fmt =>
              if fmt.isEmpty then H.datetimeFromisoformat (strText H value)
              else H.strptime (strText H value) fmt
          | none => H.datetimeFromisoformat (strText H value)
        match parsed with
        | some d => .ok (.datetime d)
        | none => .error (.valueError "Invalid isoformat string")

/-- `apply_transform` -/
def applyTransform (name : String) (value : PyValue) (params : List (String × String)) :
    Except Exn PyValue :=
  match transformStage? name with
  | none => .error (.polymorphError ("unknown transform: " ++ name))
  | some .source =>
      if name = "copy" then .ok value
      else if name = "trim" then .ok (trim H value)
      else if name = "parse_integer" then parseInteger H value
      else if name = "parse_decimal" then parseDecimal H value params
      else parseDatetime H value params
  | some _ =>
      .error (.polymorphError ("transform " ++ name ++ " cannot execute at the source stage"))

end Functions

end Polymorph
