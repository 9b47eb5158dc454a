import PackageStaging.Catalog
import PackageStaging.Proofs.Url.Encoded

namespace PackageStaging.WebCatalog

variable {word cs before after : List Char}

theorem eq_of_splitFirst? (h : splitFirst? word cs = some (before, after)) :
    cs = before ++ word ++ after := by
  induction cs generalizing before after with
  | nil =>
    rw [splitFirst?] at h
    split at h
    · rename_i hword
      cases h
      rw [List.isEmpty_iff.1 hword]
      rfl
    · cases h
  | cons c cs ih =>
    rw [splitFirst?] at h
    split at h
    · rename_i hword
      cases h
      exact (List.prefix_iff_eq_append.1 (List.isPrefixOf_iff_prefix.1 hword)).symm
    · obtain ⟨⟨front, rest⟩, hrest, he⟩ := Option.map_eq_some_iff.1 h
      cases he
      rw [ih hrest, List.cons_append, List.cons_append]

/-- A word that occurs is found, and nowhere behind where it occurs. -/
theorem exists_splitFirst? (word b a : List Char) : ∃ before after,
    splitFirst? word (b ++ word ++ a) = some (before, after) ∧ before.length ≤ b.length := by
  induction b with
  | nil =>
    cases hcs : [] ++ word ++ a with
    | nil =>
      obtain rfl : word = [] := by simp_all
      exact ⟨[], [], rfl, Nat.le_refl 0⟩
    | cons c cs =>
      have hword : word.isPrefixOf (c :: cs) := by
        rw [List.isPrefixOf_iff_prefix, ← hcs]
        exact List.prefix_append word a
      exact ⟨[], _, by rw [splitFirst?, if_pos hword], Nat.le_refl 0⟩
  | cons c b ih =>
    obtain ⟨before, after, hfound, hle⟩ := ih
    rw [List.cons_append, List.cons_append, splitFirst?]
    split
    · exact ⟨[], _, rfl, Nat.zero_le _⟩
    · exact ⟨c :: before, after, by rw [hfound]; rfl, Nat.succ_le_succ hle⟩

theorem splitFirst?_eq_none_iff : splitFirst? word cs = none ↔ ¬ word <:+: cs := by
  constructor
  · rintro hnone ⟨b, a, rfl⟩
    obtain ⟨before, after, hfound, -⟩ := exists_splitFirst? word b a
    rw [hnone] at hfound
    cases hfound
  · intro hword
    cases h : splitFirst? word cs with
    | none => rfl
    | some found => exact absurd ⟨found.1, found.2, (eq_of_splitFirst? h).symm⟩ hword

theorem length_le_of_splitFirst? (h : splitFirst? word cs = some (before, after))
    {b a : List Char} (hcs : cs = b ++ word ++ a) : before.length ≤ b.length := by
  obtain ⟨front, rest, hfound, hle⟩ := exists_splitFirst? word b a
  rw [← hcs, h] at hfound
  cases hfound
  exact hle

/-- The characters that divide the parts of a URL, and the braces of a placeholder. -/
def delimiters : List Char := ['/', '?', '#', '@', ':', '\x7b', '\x7d']

theorem not_mem_encode_of_delimiter {d : Char} (hd : d ∈ delimiters) (name : String) :
    d ∉ (Percent.encode Percent.isUnreserved name).toList := by
  intro hmem
  have hletters : delimiters.all (!Percent.isPlain ·) := rfl
  have hplain : Percent.isPlain d = false := by simpa using List.all_eq_true.1 hletters d hd
  rw [Percent.isPlain_of_mem_encode hmem] at hplain
  cases hplain

theorem packageUrl_of_not_infix {template : String}
    (h : ¬ placeholder.toList <:+: template.toList) (name : String) :
    packageUrl template name = template := by
  rw [packageUrl, splitFirst?_eq_none_iff.2 h]

theorem exists_packageUrl_eq {template : String} (h : placeholder.toList <:+: template.toList) :
    ∃ before after : String, template = before ++ placeholder ++ after ∧
      (∀ b a, template = b ++ placeholder ++ a → before.length ≤ b.length) ∧
      ∀ name, packageUrl template name =
        before ++ Percent.encode Percent.isUnreserved name ++ after := by
  cases hsplit : splitFirst? placeholder.toList template.toList with
  | none => exact absurd h (splitFirst?_eq_none_iff.1 hsplit)
  | some found =>
    obtain ⟨before, after⟩ := found
    refine ⟨String.ofList before, String.ofList after, ?_, fun b a hba ↦ ?_, fun name ↦ ?_⟩
    · rw [← String.toList_inj, eq_of_splitFirst? hsplit]
      simp
    · have hlist : template.toList = b.toList ++ placeholder.toList ++ a.toList := by
        rw [hba]
        simp
      rw [String.length_ofList, ← String.length_toList]
      exact length_le_of_splitFirst? hsplit hlist
    · rw [packageUrl, hsplit]

theorem packageUrl_injective {template : String}
    (h : placeholder.toList <:+: template.toList) : Function.Injective (packageUrl template) := by
  intro name other heq
  obtain ⟨before, after, -, -, hurl⟩ := exists_packageUrl_eq h
  rw [hurl, hurl, String.append_left_inj, String.append_right_inj] at heq
  exact Percent.encode_injective (by decide) heq

/-- What is put in for a name depends on the name alone: it is made of unreserved characters and
encoded bytes, decodes to the name, and holds no delimiter and no placeholder. It takes the place of
the first placeholder of a template, all else staying as it is, and a template without one is taken
as it stands. Different names give different URLs. -/
theorem packageUrl_substitutes (name : String) : ∃ encoded : String,
    Percent.IsEncoded encoded.toList ∧
    (Percent.decode encoded.toList).toByteArray = name.toUTF8 ∧
    (∀ d ∈ delimiters, d ∉ encoded.toList) ∧ ¬ placeholder.toList <:+: encoded.toList ∧
    ∀ template,
      (¬ placeholder.toList <:+: template.toList → packageUrl template name = template) ∧
      (placeholder.toList <:+: template.toList →
        (∃ before after : String, template = before ++ placeholder ++ after ∧
          (∀ b a, template = b ++ placeholder ++ a → before.length ≤ b.length) ∧
          packageUrl template name = before ++ encoded ++ after) ∧
        ∀ other, other ≠ name → packageUrl template other ≠ packageUrl template name) := by
  refine ⟨_, Percent.isEncoded_encode name, Percent.decode_encode (by decide) name,
    fun d hd ↦ not_mem_encode_of_delimiter hd name, fun hoccurs ↦ ?_, fun template ↦
    ⟨fun h ↦ packageUrl_of_not_infix h name, fun h ↦ ⟨?_, fun other hne ↦
      (packageUrl_injective h).ne hne⟩⟩⟩
  · have hbrace : '\x7b' ∈ placeholder.toList := by decide
    exact not_mem_encode_of_delimiter (by decide) name (hoccurs.subset hbrace)
  · obtain ⟨before, after, htemplate, hfirst, hurl⟩ := exists_packageUrl_eq h
    exact ⟨before, after, htemplate, hfirst, hurl name⟩

def doubled : String := "http://h/" ++ placeholder ++ "?v=" ++ placeholder

theorem packageUrl_substitutes_doubled : placeholder.toList <:+: doubled.toList ∧
    ∃ before encoded after : String, doubled = before ++ placeholder ++ after ∧
      before.length ≤ 9 ∧ packageUrl doubled placeholder = before ++ encoded ++ after ∧
      ¬ placeholder.toList <:+: encoded.toList ∧
      packageUrl doubled "vim" ≠ packageUrl doubled placeholder := by
  have hplaceholder : placeholder.toList <:+: doubled.toList := by decide +kernel
  obtain ⟨encoded, -, -, -, honce, htemplates⟩ := packageUrl_substitutes placeholder
  obtain ⟨⟨before, after, hdoubled, hfirst, hurl⟩, hother⟩ :=
    (htemplates doubled).2 hplaceholder
  have hbefore : before.length ≤ 9 := by
    apply hfirst "http://h/" ("?v=" ++ placeholder)
    rw [doubled, String.append_assoc]
  exact ⟨hplaceholder, before, encoded, after, hdoubled, hbefore, hurl, honce,
    hother "vim" (by decide)⟩

end PackageStaging.WebCatalog
