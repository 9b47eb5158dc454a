import PackageStaging.Text.Quoted

namespace PackageStaging.Json

def escapeChar (c : Char) : List Char :=
  match c with
  | '"' => ['\\', '"']
  | '\\' => ['\\', '\\']
  | '\x08' => ['\\', 'b']
  | '\x0c' => ['\\', 'f']
  | '\n' => ['\\', 'n']
  | '\r' => ['\\', 'r']
  | '\t' => ['\\', 't']
  | c =>
    if c.toNat < 0x20 then
      ['\\', 'u', '0', '0', Text.lowerHexDigit (c.toNat / 16), Text.lowerHexDigit (c.toNat % 16)]
    else [c]

def ofText (s : String) : String :=
  "\"" ++ String.ofList (s.toList.flatMap escapeChar) ++ "\""

def ofBool (b : Bool) : String := if b then "true" else "false"

def ofMembers (ms : List (String × String)) : String :=
  "\x7b" ++ ",".intercalate (ms.map fun (key, value) ↦ ofText key ++ ":" ++ value) ++ "\x7d"

end PackageStaging.Json
