import PackageStaging.Decimal.Shortest
import PackageStaging.Text.Quoted

namespace PackageStaging.Json

abbrev Input := List Char

def byteCount : Input → Nat
  | [] => 0
  | c :: s => c.utf8Size + byteCount s

inductive Found
  | null
  | boolean (b : Bool)
  | integer (i : Int)
  | decimal (x : Float)
  | text (s : String)
  | list
  | object

def Found.message : Found → String
  | null => "null"
  | boolean b => s!"boolean `{b}`"
  | integer i => s!"integer `{i}`"
  | decimal x => "floating point `" ++ Decimal.render x ++ "`"
  | text s => "string " ++ Text.quote s
  | list => "sequence"
  | object => "map"

inductive Reason
  | endOfValue
  | endOfList
  | endOfObject
  | endOfText
  | expectedColon
  | expectedListEnd
  | expectedObjectEnd
  | expectedValue
  | expectedKeyword
  | invalidNumber
  | numberOutOfRange
  | invalidEscape
  | controlCharacter
  | loneSurrogate
  | brokenSurrogatePair
  | expectedKey
  | trailingComma
  | trailingCharacters
  | tooDeep
  | wrongType (found : Found) (wanted : String)
  | repeatedKey (key : String)
  | unknownName (name : String) (known : List String)
  | noAlternative (type : String)

def Reason.message : Reason → String
  | endOfValue => "EOF while parsing a value"
  | endOfList => "EOF while parsing a list"
  | endOfObject => "EOF while parsing an object"
  | endOfText => "EOF while parsing a string"
  | expectedColon => "expected `:`"
  | expectedListEnd => "expected `,` or `]`"
  | expectedObjectEnd => "expected `,` or `\x7d`"
  | expectedValue => "expected value"
  | expectedKeyword => "expected ident"
  | invalidNumber => "invalid number"
  | numberOutOfRange => "number out of range"
  | invalidEscape => "invalid escape"
  | controlCharacter => "control character (\\u0000-\\u001F) found while parsing a string"
  | loneSurrogate => "lone leading surrogate in hex escape"
  | brokenSurrogatePair => "unexpected end of hex escape"
  | expectedKey => "key must be a string"
  | trailingComma => "trailing comma"
  | trailingCharacters => "trailing characters"
  | tooDeep => "recursion limit exceeded"
  | wrongType found wanted => "invalid type: " ++ found.message ++ ", expected " ++ wanted
  | repeatedKey key => s!"duplicate field `{key}`"
  | unknownName name known =>
    s!"unknown variant `{name}`, expected one of " ++
      ", ".intercalate (known.map fun k ↦ "`" ++ k ++ "`")
  | noAlternative type => "data did not match any variant of untagged enum " ++ type

structure Fault where
  reason : Reason
  behind : Nat

namespace Fault

/-- A fault found when `rest` was still to be read. -/
def before (reason : Reason) (rest : Input) : Fault := ⟨reason, byteCount rest⟩

/-- A fault that takes in the first byte of `rest`, or the end of the text. -/
def on (reason : Reason) (rest : Input) : Fault := ⟨reason, byteCount rest - 1⟩

end Fault

structure Position where
  line : Nat
  column : Nat
  deriving DecidableEq, Repr

def Position.after (text : String) (offset : Nat) : Position :=
  let read := text.toUTF8.toList.take offset
  ⟨read.count 0x0A + 1, (read.reverse.takeWhile (· != 0x0A)).length⟩

/-- Why a whole text is refused; a text that is well formed but means nothing has no position. -/
structure Error where
  reason : Reason
  position : Option Position

def Error.message (e : Error) : String :=
  match e.position with
  | none => e.reason.message
  | some p => s!"{e.reason.message} at line {p.line} column {p.column}"

def Fault.placeIn (f : Fault) (text : String) : Error :=
  ⟨f.reason, some (Position.after text (text.utf8ByteSize - f.behind))⟩

end PackageStaging.Json
