import PackageStaging.Text.Blank

namespace PackageStaging

structure Synthesizer where
  addVerb : String
  removeVerb : String
  preHook : Option String
  postHook : Option String
  deriving DecidableEq, Repr

namespace Synthesizer

def fragment? (verb : String) (names : List String) : Option String :=
  match names.filterMap Text.nonBlank? with
  | [] => none
  | names => some (Text.trim (verb ++ " " ++ " ".intercalate names))

def command (s : Synthesizer) (add remove : List String) : String :=
  match (fragment? s.addVerb add).toList ++ (fragment? s.removeVerb remove).toList with
  | [] => ""
  | fragments => " && ".intercalate (s.preHook.toList ++ fragments ++ s.postHook.toList)

end Synthesizer

end PackageStaging
