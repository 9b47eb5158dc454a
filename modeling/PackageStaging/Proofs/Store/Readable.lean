import PackageStaging.Proofs.Session.Progress
import PackageStaging.Proofs.TwoWorlds

namespace PackageStaging

namespace FileTree

variable {t u : FileTree} {p : Path} {n m : String} {d : Place}

/-- What stands at a path is nothing or a text. -/
def IsTextual (t : FileTree) (p : Path) : Prop :=
  t.text p = .error .notFound ∨ ∃ text, t.text p = .ok text

theorem text_of_read_error {e : FileError} (h : t.read p = .error e) : t.text p = .error e := by
  rw [text, h]

theorem text_congr {q : Path} (h : u.read q = t.read p) : u.text q = t.text p := by
  rw [text, text, h]

theorem text_of_read {text : String} (h : t.read p = .ok text.toUTF8) : t.text p = .ok text := by
  simp only [FileTree.text, h, fromUTF8?_toUTF8]

theorem text_child_ne_empty (p : Path) (hn : IsEntryName n) : (p.child n).text ≠ "" := by
  obtain ⟨slash, hslash⟩ := exists_text_child p
  rw [hslash]
  simp [hn.ne_empty]

theorem IsTextual.leadsInto (h : t.IsTextual (p.child n)) (hn : IsEntryName n)
    (hd : t.Enters p d) : t.LeadsInto p n d := by
  -- A path that is too long, say, would fail in another way than one of a missing file.
  cases hs : t.start (p.child n) with
  | ok first => exact ⟨start_ok hs t, hd⟩
  | error e =>
    have hread : t.read (p.child n) = .error e := by
      simp only [FileTree.read, FileTree.locate, hs, bind, Except.bind]
    have htext := text_of_read_error hread
    rcases h with hnone | ⟨text, hsome⟩
    · rw [htext] at hnone
      cases hnone
      exact absurd (text_of_start_notFound hs) (text_child_ne_empty p hn)
    · rw [htext] at hsome
      cases hsome

theorem LeadsInto.read_eq (h : t.LeadsInto p n d) (hn : IsEntryName n) :
    t.read (p.child n) = match t.node? (n :: d) with
      | none => .error .notFound
      | some (.directory _) => .error .isADirectory
      | some (.file content _) => .ok content := by
  rcases hnode : t.node? (n :: d) with _ | _ | _ <;>
    simp [FileTree.read, h.locate hn, hnode, bind, Except.bind]

theorem IsTextual.not_isDirectory (h : t.IsTextual (p.child n)) (hn : IsEntryName n)
    (hd : t.LeadsInto p n d) : ¬ t.IsDirectory (n :: d) := by
  rintro ⟨mode, hm⟩
  have hread := hd.read_eq hn
  rw [hm] at hread
  rcases h with hnone | ⟨text, hsome⟩
  · rw [text_of_read_error hread] at hnone
    cases hnone
  · rw [text_of_read_error hread] at hsome
    cases hsome

theorem IsTextual.exists_write (h : t.IsTextual (p.child n)) (hn : IsEntryName n)
    (hd : t.Enters p d) (content : ByteArray) : ∃ u, t.write (p.child n) content = .ok u := by
  have hinto := h.leadsInto hn hd
  rw [hinto.write_eq hn]
  cases hnode : t.node? (n :: d) with
  | none => exact ⟨_, rfl⟩
  | some node =>
    cases node with
    | file old mode => exact ⟨_, rfl⟩
    | directory mode => exact absurd ⟨mode, hnode⟩ (h.not_isDirectory hn hinto)

end FileTree

namespace Store

open FileTree (IsTextual)

/-- The base directory is there, and each list in it is missing or a text. -/
structure IsReadable (s : Store) (t : FileTree) : Prop where
  enters : ∃ d, t.Enters s.base d
  textual (list : StoredList) : t.IsTextual (s.path list)

variable {s : Store} {t u : FileTree} {list other : StoredList} {items : List String}

theorem IsReadable.isReachable (h : s.IsReadable t) : ∃ d, s.IsReachable t d := by
  obtain ⟨d, hd⟩ := h.enters
  exact ⟨d, fun list ↦ (h.textual list).leadsInto list.isEntryName hd⟩

theorem itemsIn_of_isTextual (h : t.IsTextual (s.path list)) :
    ∃ items, s.itemsIn t list = .ok items := by
  rw [itemsIn]
  rcases h with hnone | ⟨text, hsome⟩
  · exact ⟨[], by rw [hnone]⟩
  · exact ⟨Text.items text, by rw [hsome]⟩

theorem IsReadable.itemsIn_ok (h : s.IsReadable t) (list : StoredList) :
    ∃ items, s.itemsIn t list = .ok items := itemsIn_of_isTextual (h.textual list)

theorem IsReadable.exists_holds (h : s.IsReadable t) : ∃ l, s.Holds t l := by
  choose items hitems using h.itemsIn_ok
  have hlog : s.logIn t = (Except.ok (items .unstaged)).map _ := congrArg _ (hitems .unstaged)
  exact ⟨⟨fun o ↦ items (.ofOperation o), _⟩, fun o ↦ hitems _, hlog⟩

theorem IsReadable.exists_save (h : s.IsReadable t) (list : StoredList) (items : List String) :
    ∃ u, s.saveIn t list items = .ok u := by
  obtain ⟨d, hd⟩ := h.enters
  exact (h.textual list).exists_write list.isEntryName hd _

theorem IsReadable.not_isStuck (h : s.IsReadable t) : ¬ s.IsStuck t := by
  rintro (@⟨list, e, he⟩ | @⟨list, items, e, he⟩)
  · obtain ⟨items, hitems⟩ := h.itemsIn_ok list
    cases he.symm.trans hitems
  · obtain ⟨u, hu⟩ := h.exists_save list items
    cases he.symm.trans hu

theorem isTextual_of_itemsIn (h : s.itemsIn t list = .ok items) : t.IsTextual (s.path list) := by
  unfold itemsIn at h
  split at h
  · rename_i text htext
    exact .inr ⟨text, htext⟩
  · rename_i hnone
    exact .inl hnone
  · cases h

theorem isTextual_of_logIn {log : Log} (h : s.logIn t = .ok log) :
    t.IsTextual (s.path .unstaged) := by
  rw [logIn] at h
  cases hitems : s.itemsIn t .unstaged with
  | ok items => exact isTextual_of_itemsIn hitems
  | error e => rw [hitems] at h; cases h

theorem isReadable_of_stands {l : Lists} (hs : s.Stands t) (hl : s.Holds t l) :
    s.IsReadable t where
  enters := by
    obtain ⟨content, mode, hm⟩ := hs .add
    obtain ⟨d, hd, -⟩ := FileTree.leadsInto_of_stat? StoredList.add.isEntryName hm
    exact ⟨d, hd.enters⟩
  textual list := by
    cases list with
    | add => exact isTextual_of_itemsIn (hl.names .add)
    | remove => exact isTextual_of_itemsIn (hl.names .remove)
    | unstaged => exact isTextual_of_logIn hl.log

theorem IsReadable.save (h : s.IsReadable t) (hsave : s.saveIn t list items = .ok u) :
    s.IsReadable u where
  enters := by
    obtain ⟨d, hd⟩ := h.enters
    exact ⟨d, enters_save hd hsave⟩
  textual other := by
    by_cases ho : other = list
    · subst ho
      have hread := FileTree.read_write_self other.isEntryName hsave
      exact .inr ⟨_, FileTree.text_of_read hread⟩
    · have hread := FileTree.read_write_of_ne list.isEntryName other.isEntryName
        (StoredList.fileName_ne ho) hsave
      rw [IsTextual, path, FileTree.text_congr hread]
      exact h.textual other

theorem IsReadable.write_other (h : s.IsReadable t) {n : String} {content : ByteArray}
    (hn : IsEntryName n) (hother : ∀ list : StoredList, n ≠ list.fileName)
    (hwrite : t.write (s.base.child n) content = .ok u) : s.IsReadable u where
  enters := by
    obtain ⟨d, hd⟩ := h.enters
    exact ⟨d, hd.write hn hwrite⟩
  textual list := by
    have hread := FileTree.read_write_of_ne hn list.isEntryName (hother list).symm hwrite
    rw [IsTextual, path, FileTree.text_congr hread]
    exact h.textual list

theorem IsReadable.logged {c : Change} (h : s.IsReadable t) (hlog : s.Logged c t u) :
    s.IsReadable u := by
  obtain ⟨log, -, hsave⟩ := hlog
  exact h.save hsave

theorem IsReadable.moved {c : Change} (h : s.IsReadable t) (hmoved : s.Moved c t u) :
    s.IsReadable u := by
  rcases hmoved.unchanged_or_saved with rfl | ⟨o, items, hsave⟩
  · exact h
  · exact h.save hsave

theorem keepsOutside_ensure (s : Store) (list : StoredList) :
    Keeps World.outside (s.ensure list) := by
  intro w
  rcases h : w.perform (s.ensure list) with ⟨r, v⟩
  rcases ensure_cases h with ⟨-, rfl, -⟩ | ⟨-, hmake⟩
  · rfl
  · rw [perform_save] at hmake
    cases hsave : s.saveIn w.tree list [] with
    | ok u => rw [hsave] at hmake; cases hmake; rfl
    | error e => rw [hsave] at hmake; cases hmake; rfl

theorem outside_prepare {w v : World} {base : Path} {d : Place} {r : Except StageError Store}
    (hd : w.tree.Enters base d) (h : w.perform (prepare base) = (r, v)) :
    v.outside = w.outside := by
  have hmade := World.withDirectory_of_enters hd
  rw [prepare_eq] at h
  rcases World.perform_bind_cases h with ⟨e, hmake, -⟩ | ⟨_, u, hmake, h⟩
  · rw [World.perform_onFile] at hmake
    obtain rfl : w.withDirectory base = v := congrArg Prod.snd hmake
    rw [hmade]
  · rw [World.perform_onFile] at hmake
    obtain rfl : w.withDirectory base = u := congrArg Prod.snd hmake
    have hkept : Keeps World.outside (do
        StoredList.all.forM fun list ↦ (⟨base⟩ : Store).ensure list
        return (⟨base⟩ : Store)) :=
      (Keeps.forM (keepsOutside_ensure ⟨base⟩) StoredList.all).bind fun _ ↦ keeps_pure _
    have hrest := hkept (w.withDirectory base)
    rwa [h, hmade] at hrest

end Store

/-- The lists of a base directory can be read and hold what they held in another tree, and its
agreement is what it was there. -/
structure Store.ReadsLike (base : Path) (t u : FileTree) : Prop where
  readable : IsReadable ⟨base⟩ u
  items (list : StoredList) : itemsIn ⟨base⟩ u list = itemsIn ⟨base⟩ t list
  agreement :
    u.stat? (base.child Config.agreementName) = t.stat? (base.child Config.agreementName)

theorem Session.outside_start {w v : World} {c : Config} {catalog : Catalog Simulation} {d : Place}
    {r : Except StageError (Session Simulation)} (hd : w.tree.Enters c.base d)
    (h : w.perform (start c catalog) = (r, v)) : v.outside = w.outside := by
  rcases start_cases h with ⟨e, -, hprepare⟩ | ⟨-, hprepare⟩
  · exact Store.outside_prepare hd hprepare
  · exact Store.outside_prepare hd hprepare

/-- Opening a session at a readable base directory succeeds, and what can be seen of the directory
stays as it was: only missing lists are made. -/
theorem Session.start_of_isReadable {w : World} {c : Config} (catalog : Catalog Simulation)
    (hw : Store.IsReadable ⟨c.base⟩ w.tree) :
    ∃ u, w.perform (start c catalog) =
        (.ok ⟨⟨c.base⟩, ⟨c.status, c.agreementFile⟩, catalog, c.synthesizer⟩, u) ∧
      u.outside = w.outside ∧ Store.ReadsLike c.base w.tree u.tree := by
  obtain ⟨d, hd⟩ := hw.isReachable
  obtain ⟨u, hu⟩ : ∃ u, w.perform (start c catalog) =
      (.ok ⟨⟨c.base⟩, ⟨c.status, c.agreementFile⟩, catalog, c.synthesizer⟩, u) := start_ok hd
  refine ⟨u, hu, ?_, ?_⟩
  · exact outside_start (hd .add).enters hu
  · refine start_induction (P := Store.ReadsLike c.base w.tree) ?_ ?_ hu
    · rintro made t t' ⟨ht, hitems, hagreement⟩ hnone hsave
      obtain ⟨items, hload⟩ := ht.itemsIn_ok made
      exact ⟨ht.save hsave, fun list ↦ (Store.itemsIn_make hnone hload hsave list).trans
        (hitems list), (Store.stat?_agreement_save hsave).trans hagreement⟩
    · rw [World.withDirectory_of_enters (hd .add).enters]
      exact ⟨hw, fun _ ↦ rfl, rfl⟩

def World.spelled (text? : StoredList → Option String) : World where
  tree.working := ["state"]
  tree.node?
    | [name, "state"] => do
      let list ← StoredList.all.find? fun list ↦ list.fileName = name
      return .file (← text? list).toUTF8 FileTree.newFileMode
    | place => World.bare.tree.node? place
  moment := ""
  answer? _ := none
  requests := []
  lookups := []

theorem World.read_spelled (text? : StoredList → Option String) (list : StoredList) :
    (spelled text?).tree.read ((⟨Config.bare.base⟩ : Store).path list) =
      (text? list).elim (.error .notFound) fun text ↦ .ok text.toUTF8 := by
  have hinto : (spelled text?).tree.LeadsInto Config.bare.base list.fileName ["state"] :=
    ⟨FileTree.start_ok (isReachable_bare list).start _, rfl, _, rfl⟩
  have hnode : (spelled text?).tree.node? [list.fileName, "state"] =
      (text? list).map fun text ↦ .file text.toUTF8 FileTree.newFileMode := by
    cases list <;> cases h : text? _ <;> simp [spelled, StoredList.all, StoredList.fileName, h]
  rw [Store.path, hinto.read_eq list.isEntryName, hnode]
  cases text? list <;> rfl

theorem World.text_spelled (text? : StoredList → Option String) (list : StoredList) :
    (spelled text?).tree.text ((⟨Config.bare.base⟩ : Store).path list) =
      (text? list).elim (.error .notFound) .ok := by
  have hread := read_spelled text? list
  cases h : text? list with
  | none => exact FileTree.text_of_read_error (hread.trans (by rw [h]; rfl))
  | some text => exact FileTree.text_of_read (hread.trans (by rw [h]; rfl))

theorem isReadable_spelled (text? : StoredList → Option String) :
    Store.IsReadable ⟨Config.bare.base⟩ (World.spelled text?).tree where
  enters := ⟨["state"], rfl, _, rfl⟩
  textual list := by
    rw [FileTree.IsTextual, World.text_spelled]
    cases text? list with
    | none => exact .inl rfl
    | some text => exact .inr ⟨text, rfl⟩

theorem itemsIn_spelled (text? : StoredList → Option String) (list : StoredList) :
    Store.itemsIn ⟨Config.bare.base⟩ (World.spelled text?).tree list =
      .ok ((text? list).elim [] Text.items) := by
  rw [Store.itemsIn, World.text_spelled]
  cases text? list <;> rfl

def World.tidy : World := .spelled fun
  | .add => some "vim\ngit\n"
  | .remove => some "nano\n"
  | .unstaged => some "+ vim\n"

def Lists.tidy : Lists where
  names
    | .add => ["vim", "git"]
    | .remove => ["nano"]
  log := [⟨.add, "vim"⟩]

theorem holds_tidy : Store.Holds ⟨Config.bare.base⟩ World.tidy.tree .tidy where
  names o := by
    rw [World.tidy, itemsIn_spelled]
    cases o <;> exact congrArg Except.ok (by decide)
  log := by
    rw [World.tidy, Store.logIn, itemsIn_spelled]
    exact congrArg Except.ok (by decide)

end PackageStaging
