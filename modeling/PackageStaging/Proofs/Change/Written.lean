import PackageStaging.Proofs.Change.Grammar
import PackageStaging.Proofs.Change.Net

namespace PackageStaging

open Text (IsItem)

namespace Change

theorem isItem_render {c : Change} (h : IsItem c.name) : IsItem c.render where
  trim_eq := by
    refine trim_render h.ne_empty ?_
    rw [← h.trimChars_eq]
    exact Text.getLast?_trimChars c.name.toList
  ne_empty := by
    intro he
    have hl := toList_render c
    simp [he] at hl
  one_line := by
    rw [toList_render]
    have hs : '\n' ≠ c.operation.symbol := by cases c.operation <;> decide
    simp [hs, h.one_line]

theorem read_render {c : Change} (h : IsItem c.name) : Change.read c.render = .ok c := by
  rw [read_render_of_not_isBlank h.not_isBlank, h.trim_eq]

theorem isItem_of_read {line : String} {c : Change} (hline : '\n' ∉ line.toList)
    (h : Change.read line = .ok c) : IsItem c.name := by
  obtain ⟨rest, hsplit, hname⟩ := read_eq_ok_iff.1 h
  refine ⟨trim_name_of_read h, ?_, ?_⟩
  · rw [← trim_name_of_read h, Ne, Text.trim_eq_empty_iff]
    exact not_isBlank_of_read h
  · intro hm
    apply hline
    rw [hname, Text.toList_trim] at hm
    refine Text.trimChars_subset _ ?_
    rw [← Text.toList_trim, hsplit, String.toList_append]
    exact List.mem_append_right _ (Text.trimChars_subset _ hm)

end Change

namespace Log

def IsProper (log : Log) : Prop := ∀ c ∈ log, IsItem c.name

theorem IsProper.append {log : Log} (h : log.IsProper) {c : Change} (hc : IsItem c.name) :
    IsProper (log ++ [c]) := by
  simpa [IsProper, or_imp, forall_and] using ⟨h, hc⟩

theorem IsProper.net {log : Log} (h : log.IsProper) : IsProper log.net :=
  fun c hc ↦ h c (log.net_sublist.subset hc)

theorem isProper_filterMap_read {lines : List String} (h : ∀ line ∈ lines, IsItem line) :
    IsProper (lines.filterMap fun line ↦ (Change.read line).toOption) := by
  intro c hc
  obtain ⟨line, hline, hread⟩ := List.mem_filterMap.1 hc
  refine Change.isItem_of_read (h line hline).one_line ?_
  cases hr : Change.read line with
  | error e => rw [hr] at hread; cases hread
  | ok d => rw [hr] at hread; cases hread; rfl

theorem IsProper.filterMap_read_render {log : Log} (h : log.IsProper) :
    (log.map Change.render).filterMap (fun line ↦ (Change.read line).toOption) = log := by
  induction log with
  | nil => rfl
  | cons c log ih =>
    obtain ⟨hc, hlog⟩ := List.forall_mem_cons.1 h
    have hread : (Change.read c.render).toOption = some c := by rw [Change.read_render hc]; rfl
    rw [List.map_cons, List.filterMap_cons, hread]
    exact congrArg (c :: ·) (ih hlog)

def text (log : Log) : String := String.join (log.map (·.render ++ "\n"))

theorem text_cons (c : Change) (log : Log) : text (c :: log) = c.render ++ "\n" ++ log.text := by
  rw [text, text, List.map_cons, String.join_cons]

theorem text_eq_empty_iff {log : Log} : log.text = "" ↔ log = [] := by
  constructor
  · intro hempty
    cases log with
    | nil => rfl
    | cons c log =>
      rw [text_cons] at hempty
      simp at hempty
  · rintro rfl
    rfl

theorem IsProper.isItem_render {log : Log} (h : log.IsProper) :
    ∀ line ∈ log.map Change.render, IsItem line :=
  List.forall_mem_map.2 fun c hc ↦ Change.isItem_render (h c hc)

theorem IsProper.ofItems_render {log : Log} (h : log.IsProper) :
    Text.ofItems (log.map Change.render) = log.text := by
  rw [Text.ofItems_of_isItem h.isItem_render, List.map_map]
  rfl

/-- Every line of the text of a log is read as the change that it was written for. -/
theorem IsProper.read_lines_text {log : Log} (h : log.IsProper) :
    (Text.lines log.text).map Change.read = log.map .ok := by
  have hlines : Text.lines log.text = log.map Change.render := by
    rw [← h.ofItems_render]
    exact Text.lines_ofItems h.isItem_render
  rw [hlines, List.map_map]
  refine List.map_congr_left fun c hc ↦ ?_
  rw [Function.comp_apply, Change.read_render (h c hc)]

end Log

end PackageStaging
