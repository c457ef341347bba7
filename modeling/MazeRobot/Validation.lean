import MazeRobot.Decimal.Binary
import MazeRobot.Json.Basic
import MazeRobot.Text.Numeral

/-! # Checking records

Stored and received values are checked field by field, and every complaint is kept: a
`Checked` value is either good or the list of all `Issue`s, in the order of the fields
and of the elements of a list.  An issue says where (`path`) and what (`Complaint`).

A record can be checked as a value that is already decoded or as a text; a few
complaints are worded differently for the two (`Source`).  `Report` is what a caller
gets to see. -/

namespace MazeRobot

/-- Where the record to be checked comes from. -/
inductive Source where
  | value
  | text
  deriving DecidableEq, Repr

/-- The records that can be checked. -/
inductive RecordKind where
  | command
  | maze
  deriving DecidableEq, Repr

/-- The name under which complaints about a record are reported. -/
def RecordKind.title : RecordKind → String
  | command => "Command"
  | maze => "MazeData"

/-- One step from a record to a part of it. -/
inductive PathStep where
  | field (name : String)
  | index (i : Nat)
  deriving DecidableEq, Repr

/-- What can be wrong with a value. -/
inductive Complaint where
  /-- The text is no JSON text. -/
  | malformed
  | notRecord (kind : RecordKind) (source : Source)
  | missing
  /-- Not one of the listed words. -/
  | notAmong (words : List String)
  | notText
  /-- A string that holds half of a surrogate pair. -/
  | tornText
  | notInteger
  | fractional
  | notFinite
  | notNumeral
  | oversized
  | tooSmall (least : Nat)
  | notSequence (source : Source)
  | notList (source : Source)
  /-- A rule about the record as a whole is broken. -/
  | rule (text : String)
  /-- A record stands too many levels inside others. -/
  | tooDeep
  | frozen
  deriving DecidableEq, Repr

namespace Complaint

/-- The code of a complaint. -/
def code : Complaint → String
  | malformed => "json_invalid"
  | notRecord _ _ => "model_type"
  | missing => "missing"
  | notAmong _ => "enum"
  | notText => "string_type"
  | tornText => "string_unicode"
  | notInteger => "int_type"
  | fractional => "int_from_float"
  | notFinite => "finite_number"
  | notNumeral => "int_parsing"
  | oversized => "int_parsing_size"
  | tooSmall _ => "greater_than_equal"
  | notSequence _ => "tuple_type"
  | notList _ => "list_type"
  | rule _ => "value_error"
  | tooDeep => "recursion_loop"
  | frozen => "frozen_instance"

/-- Words in quotes, the last one after "or". -/
def alternatives : List String → String
  | [] => ""
  | [w] => s!"'{w}'"
  | [v, w] => s!"'{v}' or '{w}'"
  | w :: rest => s!"'{w}', " ++ alternatives rest

/-- The text of a complaint.  What is wrong with a malformed text is not reported. -/
def message? : Complaint → Option String
  | malformed => none
  | notRecord _ .text => some "Input should be an object"
  | notRecord kind .value =>
    some s!"Input should be a valid dictionary or instance of {kind.title}"
  | missing => some "Field required"
  | notAmong words => some ("Input should be " ++ alternatives words)
  | notText => some "Input should be a valid string"
  | tornText =>
    some "Input should be a valid string, unable to parse raw data as a unicode string"
  | notInteger => some "Input should be a valid integer"
  | fractional => some "Input should be a valid integer, got a number with a fractional part"
  | notFinite => some "Input should be a finite number"
  | notNumeral => some "Input should be a valid integer, unable to parse string as an integer"
  | oversized => some "Unable to parse input string as an integer, exceeded maximum size"
  | tooSmall least => some s!"Input should be greater than or equal to {least}"
  | notSequence .value => some "Input should be a valid tuple"
  | notSequence .text => some "Input should be a valid array"
  | notList .value => some "Input should be a valid list"
  | notList .text => some "Input should be a valid array"
  | rule text => some ("Value error, " ++ text)
  | tooDeep => some "Recursion error - cyclic reference detected"
  | frozen => some "Instance is frozen"

end Complaint

/-- A complaint and where it arose. -/
structure Issue where
  path : List PathStep
  complaint : Complaint
  deriving DecidableEq, Repr

/-- All complaints about one record. -/
structure Report where
  kind : RecordKind
  issues : List Issue
  deriving DecidableEq, Repr

/-- A good value, or everything that is wrong. -/
abbrev Checked (α : Type) := Except (List Issue) α

namespace Checked

/-- A single complaint about the value at hand. -/
def complain (c : Complaint) : Checked α := .error [⟨[], c⟩]

/-- The issues of a check, seen from one level further out. -/
def within (step : PathStep) (r : Checked α) : Checked α :=
  r.mapError fun issues => issues.map fun i => { i with path := step :: i.path }

/-- Two checks; the issues of both count. -/
def both (a : Checked α) (b : Checked β) : Checked (α × β) :=
  match a, b with
  | .ok x, .ok y => .ok (x, y)
  | .error e, .ok _ => .error e
  | .ok _, .error f => .error f
  | .error e, .error f => .error (e ++ f)

/-- The elements of a list, each checked at its index from `i` on. -/
def eachFrom (i : Nat) (check : α → Checked β) : List α → Checked (List β)
  | [] => .ok []
  | v :: rest =>
    (both (within (.index i) (check v)) (eachFrom (i + 1) check rest)).map fun (x, xs) => x :: xs

/-- The elements of a list, each checked at its index. -/
def each (check : α → Checked β) (vs : List α) : Checked (List β) := eachFrom 0 check vs

/-- A field that has to be there. -/
def required (fields : List (Text × Json)) (name : String) (check : Json → Checked α) :
    Checked α :=
  within (.field name) <|
    match Json.field? name fields with
    | none => complain .missing
    | some v => check v

/-- A text of any kind. -/
def text : Json → Checked Text
  | .str t => .ok t
  | _ => complain .notText

/-- A text that has to be a string. -/
def string (t : Text) : Checked String :=
  match t.string? with
  | some s => .ok s
  | none => complain .tornText

/-- A word from a fixed list. -/
def word (words : List String) (read? : String → Option α) : Json → Checked α
  | .str t =>
    (string t).bind fun s =>
      match read? s with
      | some a => .ok a
      | none => complain (.notAmong words)
  | _ => complain (.notAmong words)

/-- Doubles from this size on are no whole numbers any more. -/
def doubleLimit : Nat := Nat.pow 2 63

/-- A whole number, also if it is written as a truth value, as a double without
fraction, or as a string. -/
def integer : Json → Checked Int
  | .int n => .ok n
  | .bool b => .ok (if b then 1 else 0)
  | .real x =>
    match Binary.ofFloat x with
    | .finite negative m q =>
      let (n, cut) := Binary.truncate negative m q
      if cut then complain .fractional
      else if n.natAbs < doubleLimit then .ok n
      else complain .oversized
    | _ => complain .notFinite
  | .str t =>
    (string t).bind fun s =>
      if Numeral.beginsOverlong s.toList then complain .oversized
      else
        match Numeral.tidied? s with
        | some n => .ok n
        | none => complain .notNumeral
  | _ => complain .notInteger

end Checked

end MazeRobot
