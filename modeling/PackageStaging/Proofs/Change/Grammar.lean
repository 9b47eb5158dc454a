import PackageStaging.Change.Basic
import PackageStaging.Proofs.Text.Words

namespace PackageStaging

open Text (IsBlank)

namespace Text

/-- The first space of a text stands between `tag` and `rest`. -/
structure Divides (s tag rest : String) : Prop where
  text_eq : s = tag ++ " " ++ rest
  no_space : ' ' ∉ tag.toList

theorem Divides.toList_eq {s tag rest : String} (h : Divides s tag rest) :
    s.toList = tag.toList ++ ' ' :: rest.toList := by
  rw [h.text_eq]
  simp

theorem exists_divides {s : String} (h : ' ' ∈ s.toList) : ∃ tag rest, Divides s tag rest := by
  obtain ⟨tag, rest, hs, htag⟩ := List.eq_append_cons_of_mem h
  refine ⟨String.ofList tag, String.ofList rest, ?_, by simpa using htag⟩
  rw [← String.toList_inj, hs]
  simp

theorem Divides.not_isBlank {s tag rest : String} (h : Divides (trim s) tag rest) :
    ¬ IsBlank rest := by
  intro hblank
  have hne : ' ' :: rest.toList ≠ [] := List.cons_ne_nil _ _
  have hlast := getLast?_trimChars s.toList
  rw [← toList_trim, h.toList_eq, List.getLast?_append_of_ne_nil _ hne] at hlast
  have hend := hlast _ (List.getLast?_eq_some_getLast hne)
  rcases List.mem_cons.1 (List.getLast_mem hne) with hspace | hrest
  · rw [hspace] at hend
    exact absurd hend (by decide)
  · rw [hblank _ hrest] at hend
    cases hend

end Text

open Text (Divides)

namespace Operation

theorem ofTag?_eq_some_iff {tag : String} {o : Operation} :
    ofTag? tag = some o ↔ tag = o.symbol.toString := by
  constructor
  · intro h
    unfold ofTag? at h
    split at h <;> cases h <;> rfl
  · rintro rfl
    exact ofTag?_symbol o

theorem read_symbol (o : Operation) : read o.symbol.toString = .ok o := by
  rw [read, ofTag?_symbol]

theorem read_of_forall_ne {tag : String} (h : ∀ o : Operation, tag ≠ o.symbol.toString) :
    read tag = .error (.unknownTag tag) := by
  have hnone : ofTag? tag = none :=
    Option.eq_none_iff_forall_ne_some.2 fun o ho ↦ h o (ofTag?_eq_some_iff.1 ho)
  rw [read, hnone]

theorem isBlank_symbol (o : Operation) : Text.isBlank o.symbol = false := by
  cases o <;> rfl

end Operation

namespace Change

variable {line tag rest : String} {c : Change}

/-- The three ways in which a line can be read. -/
inductive Reading (line : String) : Except ReadError Change → Prop
  | malformed : ' ' ∉ (Text.trim line).toList → Reading line (.error (.malformed line))
  | change {o : Operation} {rest : String} :
      Text.trim line = o.symbol.toString ++ " " ++ rest → Reading line (.ok ⟨o, Text.trim rest⟩)
  | unknownTag {tag rest : String} :
      Divides (Text.trim line) tag rest → (∀ o : Operation, tag ≠ o.symbol.toString) →
      Reading line (.error (.unknownTag tag))

theorem divides_symbol {s : String} {o : Operation} (h : s = o.symbol.toString ++ " " ++ rest) :
    Divides s o.symbol.toString rest := by
  refine ⟨h, ?_⟩
  cases o <;> decide

theorem read_of_no_space (h : ' ' ∉ (Text.trim line).toList) :
    read line = .error (.malformed line) := by
  have hdrop : (Text.trimChars line.toList).dropWhile (· != ' ') = [] := by
    rw [List.dropWhile_eq_nil_iff, ← Text.toList_trim]
    intro c hc
    simpa using ne_of_mem_of_not_mem hc h
  simp only [read, hdrop]

/-- What is behind the first space has a name in it, so the tag alone decides. -/
theorem read_of_divides (h : Divides (Text.trim line) tag rest) :
    read line = (Operation.read tag).map (⟨·, Text.trim rest⟩) := by
  have htag : ∀ c ∈ tag.toList, (c != ' ') = true := by
    intro c hc
    simpa using ne_of_mem_of_not_mem hc h.no_space
  have hline : Text.trimChars line.toList = tag.toList ++ ' ' :: rest.toList := by
    rw [← Text.toList_trim, h.toList_eq]
  have hdrop : (Text.trimChars line.toList).dropWhile (· != ' ') = ' ' :: rest.toList := by
    rw [hline, List.dropWhile_append_of_pos htag]
    rfl
  have htake : (Text.trimChars line.toList).takeWhile (· != ' ') = tag.toList := by
    rw [hline, List.takeWhile_append_of_pos htag]
    simp
  have hname : (Text.trim rest).isEmpty = false := by
    simpa [Text.trim_eq_empty_iff] using h.not_isBlank
  simp only [read, hdrop, htake, String.ofList_toList, hname]
  rfl

theorem Reading.read_eq {r : Except ReadError Change} (h : Reading line r) : read line = r := by
  cases h with
  | malformed hspace => exact read_of_no_space hspace
  | change hline =>
    rw [read_of_divides (divides_symbol hline), Operation.read_symbol]
    rfl
  | unknownTag hline htag =>
    rw [read_of_divides hline, Operation.read_of_forall_ne htag]
    rfl

theorem reading_read (line : String) : Reading line (read line) := by
  have hof {r : Except ReadError Change} (h : Reading line r) : Reading line (read line) :=
    h.read_eq ▸ h
  by_cases hspace : ' ' ∈ (Text.trim line).toList
  · obtain ⟨tag, rest, hline⟩ := Text.exists_divides hspace
    by_cases htag : ∃ o : Operation, tag = o.symbol.toString
    · obtain ⟨o, rfl⟩ := htag
      exact hof (.change hline.text_eq)
    · exact hof (.unknownTag hline (not_exists.1 htag))
  · exact hof (.malformed hspace)

theorem read_eq_iff {r : Except ReadError Change} : read line = r ↔ Reading line r :=
  ⟨fun h ↦ h ▸ reading_read line, Reading.read_eq⟩

theorem read_eq_ok_iff : read line = .ok c ↔ ∃ rest,
    Text.trim line = c.operation.symbol.toString ++ " " ++ rest ∧ c.name = Text.trim rest := by
  rw [read_eq_iff]
  constructor
  · intro h
    cases h with
    | change hline => exact ⟨_, hline, rfl⟩
  · obtain ⟨o, n⟩ := c
    rintro ⟨rest, hline, rfl⟩
    exact .change hline

theorem read_eq_malformed_iff {l : String} :
    read line = .error (.malformed l) ↔ ' ' ∉ (Text.trim line).toList ∧ l = line := by
  rw [read_eq_iff]
  constructor
  · intro h
    cases h with
    | malformed hspace => exact ⟨hspace, rfl⟩
  · rintro ⟨hspace, rfl⟩
    exact .malformed hspace

theorem read_eq_unknownTag_iff : read line = .error (.unknownTag tag) ↔
    (∀ (o : Operation) rest, Text.trim line ≠ o.symbol.toString ++ " " ++ rest) ∧
      ∃ rest, Divides (Text.trim line) tag rest := by
  constructor
  · intro h
    refine ⟨fun o rest hline ↦ ?_, ?_⟩
    · rw [(Reading.change hline).read_eq] at h
      cases h
    · cases read_eq_iff.1 h with
      | unknownTag hline => exact ⟨_, hline⟩
  · rintro ⟨hnone, rest, hline⟩
    refine read_eq_iff.2 (.unknownTag hline fun o ho ↦ ?_)
    exact hnone o rest (ho ▸ hline.text_eq)

theorem read_ne_nameless (line l : String) : read line ≠ .error (.nameless l) := by
  intro h
  cases read_eq_iff.1 h

theorem trim_name_of_read (h : read line = .ok c) : Text.trim c.name = c.name := by
  obtain ⟨rest, -, hname⟩ := read_eq_ok_iff.1 h
  rw [hname, Text.trim_trim]

theorem not_isBlank_of_read (h : read line = .ok c) : ¬ IsBlank c.name := by
  obtain ⟨rest, hline, hname⟩ := read_eq_ok_iff.1 h
  have hrest : ¬ IsBlank rest := (divides_symbol hline).not_isBlank
  rwa [← Text.trim_eq_empty_iff, hname, Text.trim_trim, Text.trim_eq_empty_iff]

theorem toList_render (c : Change) :
    c.render.toList = c.operation.symbol :: ' ' :: c.name.toList := by
  simp [render]

theorem trim_render (hne : c.name ≠ "")
    (hlast : ∀ d ∈ c.name.toList.getLast?, Text.isBlank d = false) :
    Text.trim c.render = c.render := by
  have hchars : c.name.toList ≠ [] := by simpa using hne
  rw [← String.toList_inj, Text.toList_trim, toList_render]
  refine Text.trimChars_of_ends ?_ ?_
  · rintro d ⟨⟩
    exact c.operation.isBlank_symbol
  · rwa [List.getLast?_cons_of_ne_nil (List.cons_ne_nil _ _),
      List.getLast?_cons_of_ne_nil hchars]

/-- The blanks behind a name are lost with the padding of the line, those before it with the
padding of the name. -/
theorem read_render_of_not_isBlank (h : ¬ IsBlank c.name) :
    read c.render = .ok ⟨c.operation, Text.trim c.name⟩ := by
  obtain ⟨o, n⟩ := c
  obtain ⟨t, blanks, rfl, hblanks, hlast⟩ := Text.exists_end_isBlank n
  have hne : t ≠ "" := by
    rintro rfl
    exact h (by simpa using hblanks)
  refine read_eq_ok_iff.2 ⟨t, ?_, Text.trim_append_of_isBlank hblanks t⟩
  calc Text.trim (render ⟨o, t ++ blanks⟩) = Text.trim (render ⟨o, t⟩ ++ blanks) := by
        simp only [render, String.append_assoc]
    _ = Text.trim (render ⟨o, t⟩) := Text.trim_append_of_isBlank hblanks _
    _ = render ⟨o, t⟩ := trim_render hne hlast

theorem read_render_of_isBlank (h : IsBlank c.name) :
    read c.render = .error (.malformed c.render) := by
  have hspace : IsBlank " " := by decide
  refine read_of_no_space ?_
  rw [render, String.append_assoc, Text.trim_append_of_isBlank (hspace.append h)]
  cases c.operation <;> decide

theorem read_render_of_read (h : read line = .ok c) : read c.render = .ok c := by
  rw [read_render_of_not_isBlank (not_isBlank_of_read h), trim_name_of_read h]

theorem ReadError.message_injective : Function.Injective ReadError.message := by
  have hmalformed (l : String) :
      (malformed l).message = "malformed unstaged entry: '" ++ l ++ "'" := rfl
  have hnameless (l : String) :
      (nameless l).message = "unstaged entry without a name: '" ++ l ++ "'" := rfl
  have hunknown (t : String) : (unknownTag t).message = "unknown operation tag: " ++ t := rfl
  intro e f h
  rw [← String.toList_inj] at h
  -- Messages of two kinds differ in a letter of the words in front of what they quote.
  rcases e with l | l | t <;> rcases f with m | m | u <;>
    simp [hmalformed, hnameless, hunknown, String.toList_inj] at h
  all_goals rw [h]

/-- A line is read as a change when, trimmed, it is a tag, a space and a rest, whose trimmed text is
the name; otherwise it is malformed if, trimmed, it has no space, and else what is before its first
space is no tag. It never lacks only the name, and the words for each error are its own. A change
is read back with its name trimmed, unless its name is blank; one that was read is read back. -/
theorem read_grammar :
    (∀ line c, read line = .ok c ↔ ∃ rest,
      Text.trim line = c.operation.symbol.toString ++ " " ++ rest ∧ c.name = Text.trim rest) ∧
    (∀ line c, read line = .ok c → c.name ≠ "") ∧
    (∀ line l, read line = .error (.malformed l) ↔
      ' ' ∉ (Text.trim line).toList ∧ l = line) ∧
    (∀ line tag, read line = .error (.unknownTag tag) ↔
      (∀ (o : Operation) rest, Text.trim line ≠ o.symbol.toString ++ " " ++ rest) ∧
        ∃ rest, Divides (Text.trim line) tag rest) ∧
    (∀ line l, read line ≠ .error (.nameless l)) ∧
    Function.Injective ReadError.message ∧
    (∀ c : Change, ¬ IsBlank c.name → read c.render = .ok ⟨c.operation, Text.trim c.name⟩) ∧
    (∀ c : Change, IsBlank c.name → read c.render = .error (.malformed c.render)) ∧
    ∀ line c, read line = .ok c → read c.render = .ok c := by
  refine ⟨fun _ _ ↦ read_eq_ok_iff, ?_, fun _ _ ↦ read_eq_malformed_iff,
    fun _ _ ↦ read_eq_unknownTag_iff, read_ne_nameless, ReadError.message_injective,
    fun _ ↦ read_render_of_not_isBlank, fun _ ↦ read_render_of_isBlank,
    fun _ _ ↦ read_render_of_read⟩
  intro line c h hempty
  apply not_isBlank_of_read h
  rw [hempty]
  decide

theorem read_grammar_ragged :
    read "\t- \u2003foo bar\r" = .ok (.remove "foo bar") ∧ (remove "foo bar").name ≠ "" ∧
      read "-\tfoo bar" = .error (.unknownTag "-\tfoo") ∧
      ¬ IsBlank "\tvim " ∧ read (add "\tvim ").render = .ok (add "vim") ∧
      IsBlank "\u00a0" ∧ read (add "\u00a0").render = .error (.malformed "+ \u00a0") ∧
      read (remove "foo bar").render = .ok (remove "foo bar") := by
  obtain ⟨hok, hname, -, hunknown, -, -, hrender, hblank, hback⟩ := read_grammar
  have hread : read "\t- \u2003foo bar\r" = .ok (.remove "foo bar") :=
    (hok _ _).2 ⟨"\u2003foo bar", by decide, by decide⟩
  have htag : Divides (Text.trim "-\tfoo bar") "-\tfoo" "bar" := ⟨by decide, by decide⟩
  have hvim : ¬ IsBlank "\tvim " := by decide
  have hspace : IsBlank "\u00a0" := by decide
  refine ⟨hread, hname _ _ hread, (hunknown _ _).2 ⟨?_, "bar", htag⟩, hvim, ?_, hspace, ?_, ?_⟩
  · intro o rest hline
    rw [htag.text_eq, ← String.toList_inj] at hline
    cases o <;> simp [Operation.symbol] at hline
  · exact hrender _ hvim
  · exact hblank _ hspace
  · exact hback _ _ hread

end Change

end PackageStaging
