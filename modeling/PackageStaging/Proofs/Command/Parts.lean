import PackageStaging.Config
import PackageStaging.Proofs.Text.Words

namespace PackageStaging

open Text (IsBlank words)

namespace Text

variable {texts more : List String}

theorem words_append_and (s t : String) :
    words (s ++ " && " ++ t) = words s ++ "&&" :: words t := by
  have hjoin : s ++ " && " ++ t = s ++ " " ++ "&&" ++ " " ++ t := by
    rw [← String.toList_inj]
    simp
  have hand : words "&&" = ["&&"] := by decide
  rw [hjoin, words_append_space, words_append_space, hand, List.append_assoc, List.singleton_append]

theorem words_chain_append (htexts : texts ≠ []) (hmore : more ≠ []) :
    words (" && ".intercalate (texts ++ more)) =
      words (" && ".intercalate texts) ++ "&&" :: words (" && ".intercalate more) := by
  rw [String.intercalate_append_of_ne_nil htexts hmore, words_append_and]

theorem words_chain_around (before after : Option String) (h : texts ≠ []) :
    words (" && ".intercalate (before.toList ++ texts ++ after.toList)) =
      before.elim [] (words · ++ ["&&"]) ++ words (" && ".intercalate texts) ++
        after.elim [] ("&&" :: words ·) := by
  have hbefore : words (" && ".intercalate (before.toList ++ texts)) =
      before.elim [] (words · ++ ["&&"]) ++ words (" && ".intercalate texts) := by
    cases before with
    | none => rfl
    | some first =>
      rw [Option.toList_some, words_chain_append (List.cons_ne_nil first []) h,
        String.intercalate_singleton, Option.elim_some, List.append_assoc, List.singleton_append]
  cases after with
  | none =>
    rw [Option.toList_none, List.append_nil, hbefore]
    exact (List.append_nil _).symm
  | some last =>
    have hne : before.toList ++ texts ≠ [] := List.append_ne_nil_of_right_ne_nil _ h
    rw [Option.toList_some, words_chain_append hne (List.cons_ne_nil last []), hbefore,
      String.intercalate_singleton]
    rfl

end Text

namespace Synthesizer

variable {s : Synthesizer} {verb other : String} {add remove names : List String}

/-- Nothing is to be done for names that are all blank. -/
def IsIdle (names : List String) : Prop := ∀ n ∈ names, IsBlank n

instance (names : List String) : Decidable (IsIdle names) := List.decidableBAll _ _

/-- The part of a command that a verb and its names make up, as far as there is anything to do: the
verb and the trimmed names, each after a space. -/
def part (verb : String) (names : List String) : List String :=
  if IsIdle names then []
  else [Text.trim (verb ++ " " ++ " ".intercalate ((names.filter (¬ IsBlank ·)).map Text.trim))]

/-- The words of the verb and of the names in their order, as far as there is anything to do. -/
def partWords (verb : String) (names : List String) : List String :=
  if IsIdle names then [] else words verb ++ names.flatMap words

theorem isIdle_append : IsIdle (add ++ remove) ↔ IsIdle add ∧ IsIdle remove :=
  List.forall_mem_append

theorem part_eq_nil_iff : part verb names = [] ↔ IsIdle names := by
  unfold part
  split <;> simp_all

theorem toList_fragment? (verb : String) (names : List String) :
    (fragment? verb names).toList = part verb names := by
  have hidle : (names.filter (¬ IsBlank ·)).map Text.trim = [] ↔ IsIdle names := by
    simp [IsIdle]
  rw [fragment?, Text.filterMap_nonBlank?, part]
  split
  · rename_i h
    rw [if_pos (hidle.1 h)]
    rfl
  · rename_i h
    rw [if_neg (mt hidle.2 h)]
    rfl

theorem command_eq (s : Synthesizer) (add remove : List String) : s.command add remove =
    if IsIdle (add ++ remove) then ""
    else " && ".intercalate (s.preHook.toList ++ (part s.addVerb add ++ part s.removeVerb remove) ++
      s.postHook.toList) := by
  have hidle : part s.addVerb add ++ part s.removeVerb remove = [] ↔ IsIdle (add ++ remove) := by
    rw [List.append_eq_nil_iff, part_eq_nil_iff, part_eq_nil_iff, isIdle_append]
  rw [command, toList_fragment?, toList_fragment?]
  split
  · rename_i h
    rw [if_pos (hidle.1 h)]
  · rename_i h
    rw [if_neg (mt hidle.2 h)]

theorem flatMap_words_trim (names : List String) :
    ((names.filter (¬ IsBlank ·)).map Text.trim).flatMap words = names.flatMap words := by
  induction names with
  | nil => rfl
  | cons n names ih =>
    by_cases h : IsBlank n
    · simpa [h, Text.words_eq_nil_iff.2 h] using ih
    · simpa [h, Text.words_trim] using ih

theorem words_of_part (h : ¬ IsIdle names) :
    words (" && ".intercalate (part verb names)) = partWords verb names := by
  rw [part, if_neg h, partWords, if_neg h, String.intercalate_singleton, Text.words_trim,
    Text.words_append_space, Text.words_intercalate_space, flatMap_words_trim]

theorem words_of_parts (h : ¬ IsIdle (add ++ remove)) :
    words (" && ".intercalate (part verb add ++ part other remove)) =
      partWords verb add ++ (if IsIdle add ∨ IsIdle remove then [] else ["&&"]) ++
        partWords other remove := by
  have hnil {verb : String} {names : List String} (h : IsIdle names) :
      part verb names = [] ∧ partWords verb names = [] := ⟨if_pos h, if_pos h⟩
  rw [isIdle_append] at h
  by_cases hadd : IsIdle add
  · have hremove : ¬ IsIdle remove := fun hremove ↦ h ⟨hadd, hremove⟩
    simp [hnil hadd, hadd, words_of_part hremove]
  · by_cases hremove : IsIdle remove
    · simp [hnil hremove, hremove, words_of_part hadd]
    · rw [Text.words_chain_append (mt part_eq_nil_iff.1 hadd) (mt part_eq_nil_iff.1 hremove),
        words_of_part hadd, words_of_part hremove, if_neg (not_or.2 ⟨hadd, hremove⟩),
        List.append_assoc, List.singleton_append]

theorem partWords_ne_nil (h : ¬ IsIdle names) : partWords verb names ≠ [] := by
  rw [partWords, if_neg h]
  intro hnil
  have hnames := List.flatMap_eq_nil_iff.1 (List.append_eq_nil_iff.1 hnil).2
  exact h fun n hn ↦ Text.words_eq_nil_iff.1 (hnames n hn)

/-- The words of a command as far as there is anything to do: those of the first hook, of the parts
and of the last hook, with `&&` between any two of these that are there. -/
def commandWords (s : Synthesizer) (add remove : List String) : List String :=
  if IsIdle (add ++ remove) then [] else
    s.preHook.elim [] (words · ++ ["&&"]) ++
      (partWords s.addVerb add ++ (if IsIdle add ∨ IsIdle remove then [] else ["&&"]) ++
        partWords s.removeVerb remove) ++
      s.postHook.elim [] ("&&" :: words ·)

theorem words_command (s : Synthesizer) (add remove : List String) :
    words (s.command add remove) = s.commandWords add remove := by
  rw [command_eq, commandWords]
  split
  · rfl
  · rename_i h
    have hparts : part s.addVerb add ++ part s.removeVerb remove ≠ [] := by
      rw [Ne, List.append_eq_nil_iff, part_eq_nil_iff, part_eq_nil_iff, ← isIdle_append]
      exact h
    rw [Text.words_chain_around _ _ hparts, words_of_parts h]

theorem commandWords_eq_nil_iff : s.commandWords add remove = [] ↔ IsIdle (add ++ remove) := by
  constructor
  · intro hwords
    by_contra h
    rw [commandWords, if_neg h] at hwords
    simp only [List.append_eq_nil_iff] at hwords
    obtain ⟨⟨-, ⟨hadd, -⟩, hremove⟩, -⟩ := hwords
    rw [isIdle_append] at h
    exact h ⟨by_contra fun ho ↦ partWords_ne_nil ho hadd,
      by_contra fun ho ↦ partWords_ne_nil ho hremove⟩
  · exact fun h ↦ if_pos h

theorem command_eq_empty_iff : s.command add remove = "" ↔ IsIdle (add ++ remove) := by
  constructor
  · intro hempty
    have hnothing : words "" = [] := rfl
    rw [← commandWords_eq_nil_iff (s := s), ← words_command, hempty, hnothing]
  · intro h
    rw [command_eq, if_pos h]

end Synthesizer

namespace Config

theorem elim_words_setting? (value : Option String) (around : List String → List String) :
    (setting? value).elim [] (fun text ↦ around (words text)) =
      (value.filter (¬ IsBlank ·)).elim [] fun text ↦ around (words text) := by
  cases value with
  | none => rfl
  | some text =>
    rw [setting?, Option.bind_some, Text.nonBlank?_eq]
    by_cases h : IsBlank text
    · simp [h, Option.filter]
    · simp [h, Option.filter, Text.words_trim]

theorem commandWords_synthesizer (c : Config) (add remove : List String) :
    c.synthesizer.commandWords add remove =
      Synthesizer.commandWords ⟨c.addVerb, c.removeVerb, c.preHook.filter (¬ IsBlank ·),
        c.postHook.filter (¬ IsBlank ·)⟩ add remove := by
  have hpart (verb : String) (names : List String) :
      Synthesizer.partWords (Text.trim verb) names = Synthesizer.partWords verb names := by
    rw [Synthesizer.partWords, Synthesizer.partWords, Text.words_trim]
  simp only [Synthesizer.commandWords, synthesizer, hpart,
    elim_words_setting? c.preHook (· ++ ["&&"]), elim_words_setting? c.postHook ("&&" :: ·)]

end Config

namespace Synthesizer

/-- What a command is and what it says: it is empty just if every name is blank; else it is the
chain of its parts that are there, and its words are theirs, none lost and none run together. Those
of a configuration are the words of its verbs and hooks as they are set, and a blank hook counts as
none. -/
theorem command_of_parts (add remove : List String) :
    (∀ s : Synthesizer, (s.command add remove = "" ↔ ∀ n ∈ add ++ remove, IsBlank n) ∧
      (s.command add remove = if IsIdle (add ++ remove) then "" else
        " && ".intercalate (s.preHook.toList ++
          (part s.addVerb add ++ part s.removeVerb remove) ++ s.postHook.toList)) ∧
      words (s.command add remove) = s.commandWords add remove) ∧
    ∀ c : Config, words (c.synthesizer.command add remove) =
      commandWords ⟨c.addVerb, c.removeVerb, c.preHook.filter (¬ IsBlank ·),
        c.postHook.filter (¬ IsBlank ·)⟩ add remove := by
  refine ⟨fun s ↦ ⟨command_eq_empty_iff, command_eq s add remove, words_command s add remove⟩,
    fun c ↦ ?_⟩
  rw [words_command, c.commandWords_synthesizer]

end Synthesizer

end PackageStaging
