import PackageStaging.Change.Basic

namespace PackageStaging.Terminal

def paint (code reset s : String) : String := s!"\x1b[{code}m{s}\x1b[{reset}m"

def red : String → String := paint "31" "39"

def green : String → String := paint "32" "39"

def yellow : String → String := paint "33" "39"

def cyan : String → String := paint "36" "39"

def bold : String → String := paint "1" "0"

def dim : String → String := paint "2" "0"

inductive Line
  | success (text : String)
  | warning (text : String)
  | info (text : String)
  | heading (text : String)
  | item (text : String)
  | field (key value : String)
  | hint (text : String)
  | change (operation : Operation) (name : String)
  | dryRun (text : String)
  | plain (text : String)
  | raw (text : String)
  deriving DecidableEq, Repr

def padRight (width : Nat) (s : String) : String :=
  s ++ String.ofList (List.replicate (width - s.length) ' ')

def colour : Operation → String → String
  | .add => green
  | .remove => red

def Line.render : Line → String
  | success text => bold (green "✓") ++ " " ++ text ++ "\n"
  | warning text => yellow "⚠" ++ " " ++ text ++ "\n"
  | info text => cyan "→" ++ " " ++ dim text ++ "\n"
  | heading text => bold text ++ "\n"
  | item text => "  " ++ text ++ "\n"
  | field key value => "  " ++ cyan (padRight 14 (key ++ ":")) ++ " " ++ value ++ "\n"
  | hint text => "  " ++ cyan "→" ++ " " ++ text ++ "\n"
  | change o name => "  " ++ bold (colour o o.symbol.toString) ++ " " ++ name ++ "\n"
  | dryRun text => dim "[dry-run]" ++ " " ++ dim text ++ "\n"
  | plain text => text ++ "\n"
  | raw text => text

def failure (text : String) : String := bold (red "✗") ++ " " ++ red text ++ "\n"

end PackageStaging.Terminal
