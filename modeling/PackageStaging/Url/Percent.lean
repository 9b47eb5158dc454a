import PackageStaging.Text.Hex

namespace PackageStaging.Percent

def ofByte (b : UInt8) : List Char :=
  ['%', Text.upperHexDigit (b.toNat / 16), Text.upperHexDigit (b.toNat % 16)]

def ofChar (keep : Char → Bool) (c : Char) : List Char :=
  if keep c then [c] else (String.utf8EncodeChar c).flatMap ofByte

def encode (keep : Char → Bool) (s : String) : String :=
  String.ofList (s.toList.flatMap (ofChar keep))

def decode : List Char → List UInt8
  | [] => []
  | '%' :: a :: b :: rest =>
    match Text.hexValue? a, Text.hexValue? b with
    | some x, some y => UInt8.ofNat (x * 16 + y) :: decode rest
    | _, _ => String.utf8EncodeChar '%' ++ decode (a :: b :: rest)
  | c :: rest => String.utf8EncodeChar c ++ decode rest

def isUnreserved (c : Char) : Bool := c.isAlphanum || c == '-' || c == '_' || c == '.' || c == '~'

def isPrintable (c : Char) : Bool := 0x20 ≤ c.toNat && c.toNat < 0x7F

def keepInFragment (c : Char) : Bool :=
  isPrintable c && !(c == ' ' || c == '"' || c == '<' || c == '>' || c == '`')

def keepInPath (c : Char) : Bool :=
  keepInFragment c && !(c == '#' || c == '?' || c == '\x7b' || c == '\x7d')

def keepInUserinfo (c : Char) : Bool :=
  keepInPath c && !(c == '/' || c == ':' || c == ';' || c == '=' || c == '@' || c == '[' ||
    c == '\\' || c == ']' || c == '^' || c == '|')

def keepInQuery (c : Char) : Bool :=
  isPrintable c && !(c == ' ' || c == '"' || c == '#' || c == '<' || c == '>')

/-- Of a scheme with a default port, a query does not keep the apostrophe either. -/
def keepInSpecialQuery (c : Char) : Bool := keepInQuery c && c != '\x27'

end PackageStaging.Percent
