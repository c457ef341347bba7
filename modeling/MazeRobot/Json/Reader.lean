import MazeRobot.Json.Number

/-! # Reading JSON text

The reader is a machine that takes one character at a time.  Its state (`Reading`) is a
stack of the arrays and objects that are still open, and a `Mode` that says what may
come next.  Reading a text is a fold of `Reading.next` over its characters, so reading
`s ++ t` is reading `t` from where `s` ended.

Besides the values of the JSON grammar the words `NaN`, `Infinity` and `-Infinity` are
accepted.  Control characters inside strings are faults.  `read dialect limit` also
refuses texts nested deeper than `limit`, counted as the dialect says.  Half of a
surrogate pair that stands in the text itself is let pass inside strings
(`Reading.take`). -/

namespace MazeRobot

namespace Json

/-- An array or object that is still open; its elements so far, the latest first. -/
inductive Frame where
  | array (items : List Json)
  /-- `key` is the key whose value is being read. -/
  | object (fields : List (Text × Json)) (key : Option Text)
  deriving Inhabited

/-- What a frame is a part of. -/
def Frame.container : Frame → Container
  | array _ => .array
  | object _ _ => .object

/-- A string whose end has not been read yet. -/
structure OpenText where
  isKey : Bool
  /-- The code points so far, the latest first. -/
  done : List CodePoint := []
  deriving Inhabited

/-- One more code point. -/
def OpenText.push (t : OpenText) (p : CodePoint) : OpenText := { t with done := p :: t.done }

/-- What may come next. -/
inductive Mode where
  /-- A value. -/
  | value
  /-- A value, or the end of the array just opened. -/
  | firstItem
  /-- A key, or the end of the object just opened. -/
  | firstKey
  | key
  | colon
  /-- What follows a complete value. -/
  | after
  /-- The rest of a string. -/
  | text (t : OpenText)
  /-- What follows a backslash. -/
  | escape (t : OpenText)
  /-- Hexadecimal digits of an escape: those read so far, and the first half of a
  surrogate pair if one came before. -/
  | hex (t : OpenText) (high : Option Nat) (digits : List Nat)
  /-- The backslash of the second half of a surrogate pair. -/
  | lowBackslash (t : OpenText) (high : Nat)
  /-- The letter of the second half of a surrogate pair. -/
  | lowLetter (t : OpenText) (high : Nat)
  /-- The rest of a number, the latest character first. -/
  | number (done : List Char)
  /-- The rest of a word, and the value it names. -/
  | word (rest : List Char) (named : Json)
  deriving Inhabited

/-- The state of the reader. -/
structure Reading where
  stack : List Frame := []
  mode : Mode := .value
  /-- The complete value, once the outermost one has been read. -/
  result : Option Json := none
  deriving Inhabited

namespace Reading

/-- The text does not follow the grammar. -/
def refuse : Except Fault α := .error .malformed

/-- A value is complete: it goes into the innermost open array or object. -/
def deliver (r : Reading) (v : Json) : Except Fault Reading :=
  match r.stack with
  | [] => .ok ⟨[], .after, some v⟩
  | .array items :: rest => .ok { r with stack := .array (v :: items) :: rest, mode := .after }
  | .object fields (some k) :: rest =>
    .ok { r with stack := .object ((k, v) :: fields) none :: rest, mode := .after }
  | .object _ none :: _ => refuse

/-- A string is complete. -/
def deliverText (r : Reading) (t : OpenText) : Except Fault Reading :=
  let text : Text := ⟨t.done.reverse⟩
  if t.isKey then
    match r.stack with
    | .object fields none :: rest =>
      .ok { r with stack := .object fields (some text) :: rest, mode := .colon }
    | _ => refuse
  else r.deliver (.str text)

/-- Opens an array or object. -/
def push (dialect : Dialect) (limit : Nat) (r : Reading) (frame : Frame) (mode : Mode) :
    Except Fault Reading :=
  if dialect = .lenient ∧ limit ≤ r.stack.length then .error (.tooDeep frame.container)
  else .ok { r with stack := frame :: r.stack, mode }

/-- Refuses an element of an array or object that is one too many in the strict dialect. -/
def checkDepth (dialect : Dialect) (limit : Nat) (r : Reading) : Except Fault Unit :=
  match dialect, r.stack with
  | .strict, frame :: outer =>
    if outer.length < limit then .ok () else .error (.tooDeep frame.container)
  | _, _ => .ok ()

/-- Blanks between the parts of a text. -/
def isGap (c : Char) : Bool := c == ' ' || c == '\t' || c == '\n' || c == '\r'

/-- The first character of a value. -/
def beginValue (dialect : Dialect) (limit : Nat) (r : Reading) (c : Char) :
    Except Fault Reading :=
  if isGap c then .ok r
  else do
    r.checkDepth dialect limit
    if c == '"' then return { r with mode := .text { isKey := false } }
    else if c == '[' then r.push dialect limit (.array []) .firstItem
    else if c == '\x7b' then r.push dialect limit (.object [] none) .firstKey
    else if c == '-' || c.isDigit then return { r with mode := .number [c] }
    else if c == 't' then return { r with mode := .word "rue".toList (.bool true) }
    else if c == 'f' then return { r with mode := .word "alse".toList (.bool false) }
    else if c == 'n' then return { r with mode := .word "ull".toList .null }
    else if c == 'N' then return { r with mode := .word "aN".toList (.real Nearest.notANumber) }
    else if c == 'I' then
      return { r with mode := .word "nfinity".toList (.real Nearest.infinity) }
    else refuse

/-- The first character of a key. -/
def beginKey (dialect : Dialect) (limit : Nat) (r : Reading) (c : Char) : Except Fault Reading :=
  if isGap c then .ok { r with mode := .key }
  else do
    r.checkDepth dialect limit
    if c == '"' then return { r with mode := .text { isKey := true } } else refuse

/-- Ends the innermost open array or object. -/
def close (r : Reading) (c : Char) : Except Fault Reading :=
  match r.stack with
  | .array items :: rest =>
    if c == ']' then { r with stack := rest }.deliver (.arr items.reverse) else refuse
  | .object fields none :: rest =>
    if c == '\x7d' then { r with stack := rest }.deliver (.obj fields.reverse) else refuse
  | _ => refuse

/-- A character after a complete value. -/
def proceed (r : Reading) (c : Char) : Except Fault Reading :=
  if isGap c then .ok r
  else if c == ',' then
    match r.stack with
    | .array _ :: _ => .ok { r with mode := .value }
    | .object _ none :: _ => .ok { r with mode := .key }
    | _ => refuse
  else r.close c

/-- The character that a one-letter escape stands for. -/
def escaped? (c : Char) : Option Char :=
  match c with
  | '"' => some '"'
  | '\\' => some '\\'
  | '/' => some '/'
  | 'b' => some '\x08'
  | 'f' => some '\x0c'
  | 'n' => some '\n'
  | 'r' => some '\r'
  | 't' => some '\t'
  | _ => none

/-- The value of a hexadecimal digit. -/
def hexDigit? (c : Char) : Option Nat :=
  if c.isDigit then some (c.toNat - '0'.toNat)
  else if 'a' ≤ c ∧ c ≤ 'f' then some (c.toNat - 'a'.toNat + 10)
  else if 'A' ≤ c ∧ c ≤ 'F' then some (c.toNat - 'A'.toNat + 10)
  else none

/-- Whether a number is the first half of a surrogate pair. -/
def isHighHalf (n : Nat) : Bool := 0xD800 ≤ n && n < 0xDC00

/-- Whether a number is the second half of a surrogate pair. -/
def isLowHalf (n : Nat) : Bool := 0xDC00 ≤ n && n < 0xE000

/-- The string with half of a surrogate pair that stands alone, where that is let pass. -/
def pushHalf (dialect : Dialect) (t : OpenText) (half : CodePoint) : Except Fault OpenText :=
  match dialect with
  | .strict => refuse
  | .lenient => .ok (t.push half)

/-- What four hexadecimal digits with the value `n` mean on their own. -/
def endSingle (dialect : Dialect) (t : OpenText) (n : Nat) : Except Fault Mode :=
  if isHighHalf n then .ok (.lowBackslash t n)
  else if isLowHalf n then (pushHalf dialect t (.ofHalf n)).map .text
  else .ok (.text (t.push (.char (Char.ofNat n))))

/-- What four hexadecimal digits with the value `n` mean after the first half `high` of
a pair, if there was one. -/
def endHex (dialect : Dialect) (t : OpenText) (high : Option Nat) (n : Nat) : Except Fault Mode :=
  match high with
  | none => endSingle dialect t n
  | some h =>
    if isLowHalf n then
      .ok (.text (t.push (.char (Char.ofNat (0x10000 + (h - 0xD800) * 0x400 + (n - 0xDC00))))))
    else do endSingle dialect (← pushHalf dialect t (.ofHalf h)) n

/-- A character of a string. -/
def nextInText (r : Reading) (t : OpenText) (c : Char) : Except Fault Reading :=
  if c == '"' then r.deliverText t
  else if c == '\\' then .ok { r with mode := .escape t }
  else if c.toNat < 0x20 then refuse
  else .ok { r with mode := .text (t.push (.char c)) }

/-- The character after a backslash. -/
def nextInEscape (r : Reading) (t : OpenText) (c : Char) : Except Fault Reading :=
  if c == 'u' then .ok { r with mode := .hex t none [] }
  else
    match escaped? c with
    | some e => .ok { r with mode := .text (t.push (.char e)) }
    | none => refuse

/-- One more character. -/
def next (dialect : Dialect) (limit : Nat) (r : Reading) (c : Char) : Except Fault Reading :=
  match r.mode with
  | .value => r.beginValue dialect limit c
  | .firstItem => if c == ']' then r.close c else r.beginValue dialect limit c
  | .firstKey =>
    if isGap c then .ok r else if c == '\x7d' then r.close c else r.beginKey dialect limit c
  | .key => r.beginKey dialect limit c
  | .colon =>
    if isGap c then .ok r else if c == ':' then .ok { r with mode := .value } else refuse
  | .after => r.proceed c
  | .text t => r.nextInText t c
  | .escape t => r.nextInEscape t c
  | .hex t high digits =>
    match hexDigit? c with
    | none => refuse
    | some d =>
      let digits := digits ++ [d]
      if digits.length < 4 then .ok { r with mode := .hex t high digits }
      else do
        let mode ← endHex dialect t high (digits.foldl (fun n d => 16 * n + d) 0)
        return { r with mode }
  | .lowBackslash t high =>
    if c == '\\' then .ok { r with mode := .lowLetter t high }
    else do r.nextInText (← pushHalf dialect t (.ofHalf high)) c
  | .lowLetter t high =>
    if c == 'u' then .ok { r with mode := .hex t (some high) [] }
    else do r.nextInEscape (← pushHalf dialect t (.ofHalf high)) c
  | .number done =>
    if isNumberChar c then .ok { r with mode := .number (c :: done) }
    else if c == 'I' && done == ['-'] then
      .ok { r with mode := .word "nfinity".toList (.real (-Nearest.infinity)) }
    else do
      let v ← number dialect done.reverse
      (← r.deliver v).proceed c
  | .word rest named =>
    match rest with
    | [] => refuse
    | w :: rest =>
      if c == w then
        if rest.isEmpty then r.deliver named else .ok { r with mode := .word rest named }
      else refuse

/-- One more code point.  Half of a surrogate pair belongs into a string; elsewhere it is
as bad as any character that is not expected. -/
def take (dialect : Dialect) (limit : Nat) (r : Reading) (p : CodePoint) :
    Except Fault Reading :=
  match p, r.mode with
  | .char c, _ => r.next dialect limit c
  | .half _, .text t => do return { r with mode := .text (← pushHalf dialect t p) }
  | .half _, .lowBackslash t high => do
    let t ← pushHalf dialect t (.ofHalf high)
    return { r with mode := .text (← pushHalf dialect t p) }
  | .half _, _ => r.next dialect limit p.shown

/-- The value of the text, if it may end here. -/
def finish (dialect : Dialect) (r : Reading) : Except Fault Json :=
  match r.mode with
  | .number done =>
    match number dialect done.reverse with
    | .error fault => .error fault
    | .ok v => if r.stack.isEmpty then .ok v else refuse
  | .after =>
    match r.stack, r.result with
    | [], some v => .ok v
    | _, _ => refuse
  | _ => refuse

end Reading

/-- The value of a JSON text nested at most `limit` deep. -/
def read (dialect : Dialect) (limit : Nat) (t : Text) : Except Fault Json :=
  (t.points.foldlM (Reading.take dialect limit) {}).bind (Reading.finish dialect)

end Json

end MazeRobot
