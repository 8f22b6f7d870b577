import Stencil.Value

/-!
# Reading data

Data is given as JSON text.  Integers of sixty-four bits stay integers; every
other number becomes a floating-point number, read as an integer of at most
twenty digits and scaled by a power of ten.  Names keep their order, a repeated
name its first place and its last value.
-/

namespace Stencil

/-- A reader of the front of a text, which never gives back more than it was
given. -/
structure TextReader (α : Type) where
  read : List Char → Option (α × List Char)
  shrinks : ∀ {text : List Char} {value : α} {rest : List Char},
    read text = some (value, rest) → rest.length ≤ text.length

namespace Json

/-- How deep arrays and objects may be nested. -/
def maxDepth : Nat := 127

/-- Whether a character is white space between the parts of a JSON text. -/
def isBlank (character : Char) : Bool :=
  character == ' ' || character == '\n' || character == '\t' || character == '\r'

/-- A text without the white space at its front. -/
def dropBlanks (text : List Char) : List Char :=
  text.dropWhile isBlank

theorem length_dropBlanks_le (text : List Char) :
    (dropBlanks text).length ≤ text.length :=
  (List.dropWhile_suffix isBlank).length_le

def simpleEscape? (letter : Char) : Option Char :=
  match letter with
  | '"' => some '"'
  | '\\' => some '\\'
  | '/' => some '/'
  | 'b' => some '\x08'
  | 'f' => some '\x0c'
  | 'n' => some '\n'
  | 'r' => some '\r'
  | 't' => some '\t'
  | _ => none

/-- Whether a sixteen-bit unit is the first half of a pair. -/
def isLeadingHalf (codeUnit : Nat) : Bool :=
  0xd800 ≤ codeUnit && codeUnit < 0xdc00

/-- Whether a sixteen-bit unit is the second half of a pair. -/
def isTrailingHalf (codeUnit : Nat) : Bool :=
  0xdc00 ≤ codeUnit && codeUnit < 0xe000

/-- The character of a pair of sixteen-bit units. -/
def joinHalves (leading trailing : Nat) : Char :=
  Char.ofNat (0x10000 + (leading - 0xd800) * 0x400 + (trailing - 0xdc00))

def prependCharacter (character : Char)
    (read : Option (List Char × List Char)) : Option (List Char × List Char) :=
  read.map fun (content, rest) => (character :: content, rest)

/-- Read a string after its opening quote. -/
def readString? : List Char → Option (List Char × List Char)
  | [] => none
  | '"' :: rest => some ([], rest)
  | '\\' :: 'u' :: a :: b :: c :: d :: rest =>
      match hexValue? [a, b, c, d] with
      | none => none
      | some codeUnit =>
          if isLeadingHalf codeUnit then
            match rest with
            | '\\' :: 'u' :: e :: f :: g :: h :: after =>
                match hexValue? [e, f, g, h] with
                | some second =>
                    if isTrailingHalf second then
                      prependCharacter (joinHalves codeUnit second)
                        (readString? after)
                    else
                      none
                | none => none
            | _ => none
          else if isTrailingHalf codeUnit then
            none
          else
            prependCharacter (Char.ofNat codeUnit) (readString? rest)
  | '\\' :: letter :: rest =>
      match simpleEscape? letter with
      | some character => prependCharacter character (readString? rest)
      | none => none
  | character :: rest =>
      if character.toNat < 0x20 ∨ character = '\\' then none
      else prependCharacter character (readString? rest)

theorem length_readString?_le {text content rest : List Char}
    (read : readString? text = some (content, rest)) :
    rest.length ≤ text.length := by
  fun_induction readString? text generalizing content rest <;>
    simp_all only [prependCharacter, Option.map_eq_some_iff, Prod.exists,
      Prod.mk.injEq, Option.some.injEq, List.length_cons, reduceCtorEq] <;>
    grind

/-- Take digits into an integer of sixty-four bits while it can hold them.  The
outcome is the integer and how many digits it holds. -/
def absorbDigits (significand : Nat) : List Char → Nat × Nat
  | [] => (significand, 0)
  | digit :: digits =>
      let next := 10 * significand + digitValue digit
      if next < Nat.pow 2 64 then
        let (whole, count) := absorbDigits next digits
        (whole, count + 1)
      else
        (significand, 0)

/-- The greatest power of ten by which a number is multiplied or divided at
once. -/
def greatestPower : Nat := 308

/-- A power of ten as a floating-point number. -/
def powerOfTen (exponent : Nat) : Binary64 :=
  Binary64.ofDecimal false 1 exponent

/-- Multiply a positive number by a power of ten, rounding each time.  There is
no outcome if the number becomes too large. -/
def scaleByTen? (number : Binary64) (exponent : Int) : Option Binary64 :=
  if number.isZero then
    some number
  else if 0 ≤ exponent then
    if exponent ≤ greatestPower then
      let scaled := number.times (powerOfTen exponent.toNat)
      if scaled.isFinite then some scaled else none
    else
      none
  else if -(greatestPower : Int) ≤ exponent then
    some (number.dividedBy (powerOfTen (-exponent).toNat))
  else
    scaleByTen? (number.dividedBy (powerOfTen greatestPower))
      (exponent + greatestPower)
termination_by (-exponent).toNat
decreasing_by simp only [greatestPower] at *; omega

/-- The value of an integer without sign that is held in sixty-four bits. -/
def integerValue (negative : Bool) (magnitude : Nat) : Value :=
  let number := signedInteger negative magnitude
  if negative ∧ magnitude = 0 then
    .float (Binary64.zero true)
  else if fitsWord 64 number then
    .integer (Int64.ofInt number)
  else
    .float (Binary64.ofInt number)

/-- Read an exponent: a mark, an optional sign and at least one digit.  Without
the mark there is no exponent. -/
def readExponent? (text : List Char) : Option (Option Int × List Char) :=
  match text with
  | [] => some (none, [])
  | mark :: rest =>
      if mark = 'e' ∨ mark = 'E' then
        let negative := (splitSign rest).1
        let digits := (splitSign rest).2.takeWhile Char.isDigit
        if digits = [] then
          none
        else
          some (some (signedInteger negative (decimalValue digits)),
            (splitSign rest).2.dropWhile Char.isDigit)
      else
        some (none, text)

/-- Read a fraction: a point and at least one digit.  Without the point there is
no fraction. -/
def readFraction? (text : List Char) : Option (Option (List Char) × List Char) :=
  match text with
  | '.' :: rest =>
      let digits := rest.takeWhile Char.isDigit
      if digits = [] then none
      else some (some digits, rest.dropWhile Char.isDigit)
  | _ => some (none, text)

/-- The digits in front of the point: zero alone, or digits that do not begin
with zero. -/
def readWhole? (text : List Char) : Option (List Char × List Char) :=
  let digits := text.takeWhile Char.isDigit
  match digits with
  | [] => none
  | ['0'] => some (digits, text.dropWhile Char.isDigit)
  | '0' :: _ => none
  | _ => some (digits, text.dropWhile Char.isDigit)

def numberValue? (negative : Bool) (whole : List Char)
    (fraction : Option (List Char)) (exponent : Option Int) : Option Value :=
  let (significand, count) := absorbDigits 0 whole
  if fraction.isNone && exponent.isNone && count == whole.length then
    some (integerValue negative significand)
  else
    let (significand, places) := absorbDigits significand (fraction.getD [])
    let power : Int := (whole.length - count : Nat) - (places : Int) + exponent.getD 0
    (scaleByTen? (Binary64.ofInt significand) power).map fun magnitude =>
      .float (if negative then magnitude.negate else magnitude)

def readMagnitude? (negative : Bool) (text : List Char) :
    Option (Value × List Char) :=
  match readWhole? text with
  | none => none
  | some (whole, afterWhole) =>
      match readFraction? afterWhole with
      | none => none
      | some (fraction, afterFraction) =>
          match readExponent? afterFraction with
          | none => none
          | some (exponent, rest) =>
              (numberValue? negative whole fraction exponent).map fun value =>
                (value, rest)

/-- Read a number, which may have a minus sign. -/
def readNumber? (text : List Char) : Option (Value × List Char) :=
  match text with
  | '-' :: rest => readMagnitude? true rest
  | _ => readMagnitude? false text

theorem length_readWhole?_le {text digits rest : List Char}
    (read : readWhole? text = some (digits, rest)) :
    rest.length ≤ text.length := by
  have := (List.dropWhile_suffix (l := text) Char.isDigit).length_le
  unfold readWhole? at read
  dsimp only at read
  split at read <;> simp_all

theorem length_readFraction?_le {text rest : List Char}
    {fraction : Option (List Char)}
    (read : readFraction? text = some (fraction, rest)) :
    rest.length ≤ text.length := by
  unfold readFraction? at read
  split at read
  · rename_i tail
    have := (List.dropWhile_suffix (l := tail) Char.isDigit).length_le
    dsimp only at read
    split at read
    · simp at read
    · simp only [Option.some.injEq, Prod.mk.injEq] at read
      rw [← read.2, List.length_cons]
      omega
  · simp only [Option.some.injEq, Prod.mk.injEq] at read
    exact Nat.le_of_eq (congrArg List.length read.2).symm

theorem length_readExponent?_le {text rest : List Char} {exponent : Option Int}
    (read : readExponent? text = some (exponent, rest)) :
    rest.length ≤ text.length := by
  unfold readExponent? at read
  split at read
  · simp_all
  · rename_i mark tail
    have := length_splitSign_le tail
    have := (List.dropWhile_suffix (l := (splitSign tail).2) Char.isDigit).length_le
    split at read
    · dsimp only at read
      split at read
      · simp at read
      · simp only [Option.some.injEq, Prod.mk.injEq] at read
        rw [← read.2, List.length_cons]
        omega
    · simp only [Option.some.injEq, Prod.mk.injEq] at read
      exact Nat.le_of_eq (congrArg List.length read.2).symm

theorem length_readMagnitude?_le {negative : Bool} {text rest : List Char}
    {value : Value} (read : readMagnitude? negative text = some (value, rest)) :
    rest.length ≤ text.length := by
  unfold readMagnitude? at read
  split at read
  · simp at read
  · rename_i whole
    have := length_readWhole?_le whole
    split at read
    · simp at read
    · rename_i fraction
      have := length_readFraction?_le fraction
      split at read
      · simp at read
      · rename_i exponent
        have := length_readExponent?_le exponent
        obtain ⟨_, _, pair⟩ := Option.map_eq_some_iff.mp read
        rw [← (Prod.mk.inj pair).2]
        omega

theorem length_readNumber?_le {text rest : List Char} {value : Value}
    (read : readNumber? text = some (value, rest)) :
    rest.length ≤ text.length := by
  unfold readNumber? at read
  split at read
  · exact Nat.le_succ_of_le (length_readMagnitude?_le read)
  · exact length_readMagnitude?_le read

def takeWord? (word text : List Char) : Option (List Char) :=
  if text.take word.length = word then some (text.drop word.length) else none

theorem length_takeWord?_le {word text rest : List Char}
    (taken : takeWord? word text = some rest) : rest.length ≤ text.length := by
  unfold takeWord? at taken
  split at taken
  · rw [← Option.some.inj taken, List.length_drop]
    omega
  · simp at taken

def readWord? (text : List Char) : Option (Value × List Char) :=
  match takeWord? ['n', 'u', 'l', 'l'] text with
  | some rest => some (.null, rest)
  | none =>
      match takeWord? ['t', 'r', 'u', 'e'] text with
      | some rest => some (.boolean true, rest)
      | none =>
          (takeWord? ['f', 'a', 'l', 's', 'e'] text).map fun rest =>
            (.boolean false, rest)

/-- Read one item or more, separated by commas, and the closing bracket. -/
def readItems? (value : TextReader Value) (text : List Char) :
    Option (List Value × List Char) :=
  match _ : value.read (dropBlanks text) with
  | none => none
  | some (item, afterItem) =>
      match _ : dropBlanks afterItem with
      | ',' :: rest =>
          (readItems? value rest).map fun (items, rest) => (item :: items, rest)
      | ']' :: rest => some ([item], rest)
      | _ => none
termination_by text.length
decreasing_by
  have := value.shrinks ‹_›
  have := length_dropBlanks_le text
  have afterBlanks := length_dropBlanks_le afterItem
  have blanksDropped : dropBlanks afterItem = ',' :: rest := ‹_›
  rw [blanksDropped, List.length_cons] at afterBlanks
  omega

/-- Read a name in quotes, a colon and a value. -/
def readField? (value : TextReader Value) (text : List Char) :
    Option ((String × Value) × List Char) :=
  match dropBlanks text with
  | '"' :: quoted =>
      match readString? quoted with
      | none => none
      | some (name, afterName) =>
          match dropBlanks afterName with
          | ':' :: afterColon =>
              (value.read (dropBlanks afterColon)).map fun (item, rest) =>
                ((String.ofList name, item), rest)
          | _ => none
  | _ => none

theorem length_readField?_le {value : TextReader Value} {text rest : List Char}
    {field : String × Value}
    (read : readField? value text = some (field, rest)) :
    rest.length ≤ text.length := by
  unfold readField? at read
  split at read
  · rename_i quoted blanksDropped
    have beforeQuote := length_dropBlanks_le text
    rw [blanksDropped, List.length_cons] at beforeQuote
    split at read
    · simp at read
    · rename_i name afterName nameRead
      have := length_readString?_le nameRead
      split at read
      · rename_i afterColon colonFound
        have beforeColon := length_dropBlanks_le afterName
        rw [colonFound, List.length_cons] at beforeColon
        obtain ⟨⟨_, _⟩, valueRead, pair⟩ := Option.map_eq_some_iff.mp read
        have := value.shrinks valueRead
        have := length_dropBlanks_le afterColon
        rw [← (Prod.mk.inj pair).2]
        omega
      · simp at read
  · simp at read

/-- Read one field or more, separated by commas, and the closing bracket. -/
def readFields? (value : TextReader Value) (text : List Char) :
    Option (List (String × Value) × List Char) :=
  match _ : readField? value text with
  | none => none
  | some (field, afterField) =>
      match _ : dropBlanks afterField with
      | ',' :: rest =>
          (readFields? value rest).map fun (fields, rest) => (field :: fields, rest)
      | '\x7d' :: rest => some ([field], rest)
      | _ => none
termination_by text.length
decreasing_by
  have := length_readField?_le ‹_›
  have afterBlanks := length_dropBlanks_le afterField
  have blanksDropped : dropBlanks afterField = ',' :: rest := ‹_›
  rw [blanksDropped, List.length_cons] at afterBlanks
  omega

theorem length_readItems?_le {value : TextReader Value} {text rest : List Char}
    {items : List Value} (read : readItems? value text = some (items, rest)) :
    rest.length ≤ text.length := by
  fun_induction readItems? value text generalizing items rest with
  | case1 => simp at read
  | case2 text item afterItem itemRead tail blanksDropped ih =>
      obtain ⟨⟨_, _⟩, tailRead, pair⟩ := Option.map_eq_some_iff.mp read
      have := ih tailRead
      have := value.shrinks itemRead
      have := length_dropBlanks_le text
      have afterBlanks := length_dropBlanks_le afterItem
      rw [blanksDropped, List.length_cons] at afterBlanks
      rw [← (Prod.mk.inj pair).2]
      omega
  | case3 text item afterItem itemRead tail blanksDropped =>
      have := value.shrinks itemRead
      have := length_dropBlanks_le text
      have afterBlanks := length_dropBlanks_le afterItem
      rw [blanksDropped, List.length_cons] at afterBlanks
      rw [← (Prod.mk.inj (Option.some.inj read)).2]
      omega
  | case4 => simp at read

theorem length_readFields?_le {value : TextReader Value} {text rest : List Char}
    {fields : List (String × Value)}
    (read : readFields? value text = some (fields, rest)) :
    rest.length ≤ text.length := by
  fun_induction readFields? value text generalizing fields rest with
  | case1 => simp at read
  | case2 text field afterField fieldRead tail blanksDropped ih =>
      obtain ⟨⟨_, _⟩, tailRead, pair⟩ := Option.map_eq_some_iff.mp read
      have := ih tailRead
      have := length_readField?_le fieldRead
      have afterBlanks := length_dropBlanks_le afterField
      rw [blanksDropped, List.length_cons] at afterBlanks
      rw [← (Prod.mk.inj pair).2]
      omega
  | case3 text field afterField fieldRead tail blanksDropped =>
      have := length_readField?_le fieldRead
      have afterBlanks := length_dropBlanks_le afterField
      rw [blanksDropped, List.length_cons] at afterBlanks
      rw [← (Prod.mk.inj (Option.some.inj read)).2]
      omega
  | case4 => simp at read

/-- Read the items of an array after its opening bracket. -/
def readArray? (value : TextReader Value) (text : List Char) :
    Option (Value × List Char) :=
  match dropBlanks text with
  | ']' :: rest => some (.array [], rest)
  | _ => (readItems? value text).map fun (items, rest) => (.array items, rest)

/-- Read the fields of an object after its opening bracket. -/
def readObject? (value : TextReader Value) (text : List Char) :
    Option (Value × List Char) :=
  match dropBlanks text with
  | '\x7d' :: rest => some (.object ∅, rest)
  | _ =>
      (readFields? value text).map fun (fields, rest) =>
        (.object (.ofPairs fields), rest)

/-- Read a value that begins at the front of a text.  Without a reader for what
is inside, arrays and objects are not allowed. -/
def readValue? (inside? : Option (TextReader Value)) (text : List Char) :
    Option (Value × List Char) :=
  match text with
  | '"' :: rest =>
      (readString? rest).map fun (content, rest) =>
        (.string (String.ofList content), rest)
  | '[' :: rest => inside?.bind fun inside => readArray? inside rest
  | '\x7b' :: rest => inside?.bind fun inside => readObject? inside rest
  | _ =>
      match readWord? text with
      | some read => some read
      | none => readNumber? text

theorem length_readWord?_le {text rest : List Char} {value : Value}
    (read : readWord? text = some (value, rest)) :
    rest.length ≤ text.length := by
  unfold readWord? at read
  split at read
  · rename_i taken
    rw [← (Prod.mk.inj (Option.some.inj read)).2]
    exact length_takeWord?_le taken
  · split at read
    · rename_i taken
      rw [← (Prod.mk.inj (Option.some.inj read)).2]
      exact length_takeWord?_le taken
    · obtain ⟨_, taken, pair⟩ := Option.map_eq_some_iff.mp read
      rw [← (Prod.mk.inj pair).2]
      exact length_takeWord?_le taken

theorem length_readArray?_le {value : TextReader Value} {text rest : List Char}
    {array : Value} (read : readArray? value text = some (array, rest)) :
    rest.length ≤ text.length := by
  unfold readArray? at read
  split at read
  · rename_i blanksDropped
    have := length_dropBlanks_le text
    rw [blanksDropped, List.length_cons] at this
    rw [← (Prod.mk.inj (Option.some.inj read)).2]
    omega
  · obtain ⟨⟨_, _⟩, itemsRead, pair⟩ := Option.map_eq_some_iff.mp read
    rw [← (Prod.mk.inj pair).2]
    exact length_readItems?_le itemsRead

theorem length_readObject?_le {value : TextReader Value} {text rest : List Char}
    {object : Value} (read : readObject? value text = some (object, rest)) :
    rest.length ≤ text.length := by
  unfold readObject? at read
  split at read
  · rename_i blanksDropped
    have := length_dropBlanks_le text
    rw [blanksDropped, List.length_cons] at this
    rw [← (Prod.mk.inj (Option.some.inj read)).2]
    omega
  · obtain ⟨⟨_, _⟩, fieldsRead, pair⟩ := Option.map_eq_some_iff.mp read
    rw [← (Prod.mk.inj pair).2]
    exact length_readFields?_le fieldsRead

theorem length_readValue?_le {inside? : Option (TextReader Value)}
    {text rest : List Char} {value : Value}
    (read : readValue? inside? text = some (value, rest)) :
    rest.length ≤ text.length := by
  unfold readValue? at read
  split at read
  · obtain ⟨⟨_, _⟩, stringRead, pair⟩ := Option.map_eq_some_iff.mp read
    rw [← (Prod.mk.inj pair).2]
    exact Nat.le_succ_of_le (length_readString?_le stringRead)
  · obtain ⟨_, _, arrayRead⟩ := Option.bind_eq_some_iff.mp read
    exact Nat.le_succ_of_le (length_readArray?_le arrayRead)
  · obtain ⟨_, _, objectRead⟩ := Option.bind_eq_some_iff.mp read
    exact Nat.le_succ_of_le (length_readObject?_le objectRead)
  · split at read
    · rename_i wordRead
      exact length_readWord?_le (wordRead.trans read)
    · exact length_readNumber?_le read

/-- The reader of values in which arrays and objects may be nested `levels`
deep. -/
def valueReader : Nat → TextReader Value
  | 0 => { read := readValue? none, shrinks := length_readValue?_le }
  | levels + 1 =>
      { read := fun text => readValue? (some (valueReader levels)) text
        shrinks := length_readValue?_le }

def read? (text : String) : Option Value :=
  match (valueReader maxDepth).read (dropBlanks text.toList) with
  | some (value, rest) => if dropBlanks rest = [] then some value else none
  | none => none

end Json

/-- Why data cannot be used. -/
inductive DataError where
  /-- The text is not JSON. -/
  | invalidJson
  /-- The data is not an object but of another type. -/
  | notObject (typeName : String)
  deriving DecidableEq, Repr, Inhabited

/-- What is said about data that cannot be used. -/
def DataError.message : DataError → String
  | .invalidJson => "invalid JSON data: expected one JSON value"
  | .notObject typeName => "data must be a JSON object, found " ++ typeName

def Value.toRecord (value : Value) : Except DataError Fields :=
  match value with
  | .object fields => .ok fields
  | other => .error (.notObject other.typeName)

def readRecord (text : String) : Except DataError Fields :=
  match Json.read? text with
  | some value => value.toRecord
  | none => .error .invalidJson

end Stencil
