import PackageStaging.Proofs.Store.Readable
import PackageStaging.Proofs.Text.Words

namespace PackageStaging.Store

open Text (IsItem)

variable {s : Store} {list : StoredList} {t u : FileTree} {w v : World} {text : String}
  {texts items : List String}

theorem perform_load_of_save (h : w.perform (s.save list texts) = (.ok (), v)) :
    v.perform (s.load list) = (.ok (texts.flatMap Text.items), v) := by
  rcases save_cases h with ⟨-, hsave⟩ | hstall
  · rw [perform_load, itemsIn_save hsave, Text.items_ofItems_eq]
  · obtain ⟨e, he, -⟩ := hstall.error
    cases he

theorem exists_save_of_text (h : t.text (s.path list) = .ok text) (items : List String) :
    ∃ u, s.saveIn t list items = .ok u := by
  unfold FileTree.text at h
  cases hread : t.read (s.path list) with
  | error e => rw [hread] at h; cases h
  | ok content =>
    obtain ⟨mode, hstat⟩ := FileTree.stat?_of_read hread
    exact FileTree.write_of_file list.isEntryName hstat _

theorem saveIn_saved (h : s.saveIn t list items = .ok u) : s.saveIn u list items = .ok u :=
  FileTree.write_read_self list.isEntryName (FileTree.read_write_self list.isEntryName h)

/-- Whatever texts are saved, their lines are loaded, trimmed and without the blank ones, and items
are loaded as they were saved. Whatever text the file of a list holds, what is loaded from it can be
saved; it is loaded from the new file, too, and saving it again changes nothing. -/
theorem load_undoes_save (s : Store) (list : StoredList) :
    (∀ (w v : World) (texts : List String), w.perform (s.save list texts) = (.ok (), v) →
      v.perform (s.load list) = (.ok (texts.flatMap fun text ↦
        ((Text.lines text).filter (¬ Text.IsBlank ·)).map Text.trim), v) ∧
      ((∀ text ∈ texts, Text.trim text = text ∧ text ≠ "" ∧ '\n' ∉ text.toList) →
        v.perform (s.load list) = (.ok texts, v))) ∧
    ∀ (w : World) (text : String), w.tree.text (s.path list) = .ok text →
      ∃ items u, w.perform (s.load list) = (.ok items, w) ∧
        w.perform (s.save list items) = (.ok (), u) ∧
        u.perform (s.load list) = (.ok items, u) ∧
        u.perform (s.save list items) = (.ok (), u) := by
  constructor
  · intro w v texts h
    have hload := perform_load_of_save h
    refine ⟨?_, fun hitems ↦ ?_⟩
    · simp only [← Text.filterMap_nonBlank?]
      exact hload
    · have hsame (text : String) (htext : text ∈ texts) : Text.items text = [text] := by
        obtain ⟨htrim, hempty, hline⟩ := hitems text htext
        exact IsItem.items_eq ⟨htrim, hempty, hline⟩
      rw [hload, List.flatMap_congr hsame, List.flatMap_singleton']
  · intro w text htext
    have hitems : s.itemsIn w.tree list = .ok (Text.items text) := by rw [itemsIn, htext]
    obtain ⟨tree, hsave⟩ := exists_save_of_text htext (Text.items text)
    refine ⟨Text.items text, { w with tree }, ?_, ?_, ?_, ?_⟩
    · rw [perform_load, hitems]
    · rw [perform_save, hsave]
    · rw [perform_load, itemsIn_save_self hsave (isItem_of_mem_itemsIn hitems)]
    · rw [perform_save, saveIn_saved hsave]

theorem load_undoes_save_ragged :
    let s : Store := ⟨Config.bare.base⟩
    let items := ["vim", "git", "a\rb", "c"]
    ∃ u v, World.tidy.perform (s.save .add [" vim \r\n\n git", "\t\u0085", "a\rb", "\u2028c\n"]) =
        (.ok (), u) ∧
      u.perform (s.load .add) = (.ok items, u) ∧
      u.perform (s.save .add items) = (.ok (), v) ∧ v.perform (s.load .add) = (.ok items, v) := by
  intro s items
  have hreadable : s.IsReadable World.tidy.tree := isReadable_spelled _
  have hsave (w : World) (texts : List String) (hw : s.IsReadable w.tree) :
      ∃ v : World, w.perform (s.save .add texts) = (.ok (), v) ∧ s.IsReadable v.tree := by
    obtain ⟨tree, htree⟩ := hw.exists_save .add texts
    exact ⟨{ w with tree }, by rw [perform_save, htree], hw.save htree⟩
  obtain ⟨u, hu, hread⟩ := hsave _ _ hreadable
  obtain ⟨v, hv, -⟩ := hsave u items hread
  have hload := ((load_undoes_save s .add).1 _ _ _ hu).1
  have hagain := ((load_undoes_save s .add).1 _ _ _ hv).2 (by decide)
  exact ⟨u, v, hu, hload.trans (by rfl), hv, hagain⟩

end PackageStaging.Store
