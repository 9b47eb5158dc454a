import PackageStaging.CommandLine.Arguments
import PackageStaging.Change.Basic

namespace PackageStaging.CommandLine

def Command.stage : Operation → List String → Command
  | .add => add
  | .remove => remove

def commandName : Operation → String
  | .add => "add"
  | .remove => "remove"

def stagingArguments (file : String) (o : Operation) (packages : List String) : List String :=
  "--config" :: file :: commandName o :: "--" :: packages

theorem foldlM_addName {scope : Scope} (hlimit : scope.nameLimit = none) (names : List String)
    (g : Given) :
    names.foldlM (Given.addName scope) g = .ok { g with names := g.names ++ names } := by
  induction names generalizing g with
  | nil => exact congrArg Except.ok (by simp)
  | cons name names ih =>
    have hadd : g.addName scope name = .ok { g with names := g.names ++ [name] } := by
      simp [Given.addName, hlimit]
    rw [List.foldlM_cons, hadd]
    exact (ih _).trans (by simp)

theorem scan_config {file : String} (hfile : Argument.classify file = .name) (hne : file ≠ "")
    (o : Operation) (rest : List String) :
    scan topScope ("--config" :: file :: commandName o :: rest) {} =
      .ok ({ values := [("config", file)] }, some (commandName o, rest)) := by
  have hconfig : Argument.classify "--config" = .option "config" none := by decide
  have hname : Argument.classify (commandName o) = .name := by cases o <;> decide
  have hcommand : topScope.commands.contains (commandName o) := by cases o <;> decide
  have hvalued : topScope.valued.contains "config" := by decide
  have hset : Given.setValue {} "config" file = .ok { values := [("config", file)] } := by
    simp [Given.setValue, Given.value?, hne]
  rw [scan, hconfig]
  simp only [hvalued, if_true, hfile, hset, bind, Except.bind]
  rw [scan, hname]
  simp only [hcommand, if_true]

theorem scan_names (o : Operation) (names : List String) :
    scan (scopeOf (commandName o)) ("--" :: names) {} = .ok ({ names }, none) := by
  have hseparator : Argument.classify "--" = .separator := by decide
  have hlimit : (scopeOf (commandName o)).nameLimit = none := by cases o <;> rfl
  rw [scan, hseparator]
  simp only [foldlM_addName hlimit]
  rfl

theorem parse_of_scan {args rest : List String} {command : String} {before after : Given}
    {last : Option (String × List String)} {c : Command} (hhelp : command ≠ "help")
    (hbefore : scan topScope args {} = .ok (before, some (command, rest)))
    (hafter : scan (scopeOf command) rest {} = .ok (after, last))
    (hcommand : commandOf command after = .ok c) :
    parse args = .ok {
      config := ((after.value? "config").or (before.value? "config")).map Path.mk
      dryRun := before.hasFlag "dry-run" || after.hasFlag "dry-run"
      command := c } := by
  rw [parse, hbefore]
  simp only [bind, Except.bind]
  rw [hafter]
  simp only [hcommand]
  rfl

theorem parse_stagingArguments {file : String} (hfile : Argument.classify file = .name)
    (hne : file ≠ "") (o : Operation) {packages : List String} (hpackages : packages ≠ []) :
    parse (stagingArguments file o packages) = .ok ⟨some ⟨file⟩, false, .stage o packages⟩ := by
  obtain ⟨name, names, rfl⟩ := List.exists_cons_of_ne_nil hpackages
  have hhelp : commandName o ≠ "help" := by cases o <;> decide
  have hcommand : commandOf (commandName o) { names := name :: names } =
      .ok (.stage o (name :: names)) := by cases o <;> rfl
  exact parse_of_scan hhelp (scan_config hfile hne o _) (scan_names o _) hcommand

end PackageStaging.CommandLine
