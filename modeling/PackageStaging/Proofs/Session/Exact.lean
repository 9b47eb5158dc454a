import PackageStaging.Proofs.Session.Edits

namespace PackageStaging

open Text (IsItem)

namespace Store

variable {s : Store} {c : Change} {t u v : FileTree} {l : Lists} {list other : StoredList}
  {items : List String}

def KeepsFile (s : Store) (list : StoredList) (t u : FileTree) : Prop :=
  u.stat? (s.path list) = t.stat? (s.path list)

theorem KeepsFile.trans (h : s.KeepsFile list t u) (h' : s.KeepsFile list u v) :
    s.KeepsFile list t v := Eq.trans h' h

theorem keepsFile_save (hne : other ≠ list) (h : s.saveIn t list items = .ok u) :
    s.KeepsFile other t u :=
  FileTree.stat?_write_of_ne list.isEntryName other.isEntryName (StoredList.fileName_ne hne) h

theorem Logged.keepsFile (h : s.Logged c t u) (o : Operation) :
    s.KeepsFile (.ofOperation o) t u := by
  obtain ⟨log, -, hsave⟩ := h
  exact keepsFile_save (StoredList.ofOperation_ne_unstaged o) hsave

theorem ofOperation_opposite_ne (o : Operation) :
    StoredList.ofOperation o.opposite ≠ .ofOperation o :=
  mt StoredList.ofOperation_inj (Operation.opposite_ne o)

/-- What becomes of the two lists of names when a name moves. -/
structure Rewrites (s : Store) (c : Change) (names : Operation → List String) (t u : FileTree) :
    Prop where
  takenBack (h : c.name ∈ names c.operation.opposite) :
    s.itemsIn u (.ofOperation c.operation.opposite) =
        .ok ((names c.operation.opposite).erase c.name) ∧
      s.KeepsFile (.ofOperation c.operation) t u
  opposite (h : c.name ∉ names c.operation.opposite) :
    s.KeepsFile (.ofOperation c.operation.opposite) t u
  kept (h : c.name ∉ names c.operation.opposite) (hmem : c.name ∈ names c.operation) :
    s.KeepsFile (.ofOperation c.operation) t u
  recorded (h : c.name ∉ names c.operation.opposite) (hmem : c.name ∉ names c.operation) :
    s.itemsIn u (.ofOperation c.operation) = .ok (names c.operation ++ [c.name])

theorem Rewrites.of_keepsFile {names : Operation → List String} (h : s.Rewrites c names u v)
    (hkept : ∀ o, s.KeepsFile (.ofOperation o) t u) : s.Rewrites c names t v where
  takenBack hmem := ⟨(h.takenBack hmem).1, (hkept _).trans (h.takenBack hmem).2⟩
  opposite hmem := (hkept _).trans (h.opposite hmem)
  kept hmem hown := (hkept _).trans (h.kept hmem hown)
  recorded := h.recorded

theorem Moved.rewrites {names : Operation → List String} (hnames : s.HoldsNames t names)
    (hc : IsItem c.name) (h : s.Moved c t u) : s.Rewrites c names t u := by
  cases h with
  | takenBack load mem save =>
    obtain rfl := hnames.eq load
    have hitems : ∀ n ∈ (names c.operation.opposite).erase c.name, IsItem n :=
      fun n hn ↦ hnames.isItem (List.mem_of_mem_erase hn)
    exact {
      takenBack := fun _ ↦ ⟨itemsIn_save_self save hitems,
        keepsFile_save (ofOperation_opposite_ne _).symm save⟩
      opposite := fun hmem ↦ absurd mem hmem
      kept := fun hmem ↦ absurd mem hmem
      recorded := fun hmem ↦ absurd mem hmem }
  | kept load_opposite not_mem_opposite load mem =>
    obtain rfl := hnames.eq load_opposite
    obtain rfl := hnames.eq load
    exact {
      takenBack := fun hmem ↦ absurd hmem not_mem_opposite
      opposite := fun _ ↦ rfl
      kept := fun _ _ ↦ rfl
      recorded := fun _ hmem ↦ absurd mem hmem }
  | recorded load_opposite not_mem_opposite load not_mem save =>
    obtain rfl := hnames.eq load_opposite
    obtain rfl := hnames.eq load
    have hitems : ∀ n ∈ names c.operation ++ [c.name], IsItem n := by
      intro n hn
      rcases List.mem_append.1 hn with hn | hn
      · exact hnames.isItem hn
      · exact List.mem_singleton.1 hn ▸ hc
    exact {
      takenBack := fun hmem ↦ absurd hmem not_mem_opposite
      opposite := fun _ ↦ keepsFile_save (ofOperation_opposite_ne _) save
      kept := fun _ hmem ↦ absurd hmem not_mem
      recorded := fun _ _ ↦ itemsIn_save_self save hitems }

end Store

namespace Session

variable {s : Session Simulation} {w v : World} {o : Operation} {name : String}

/-- A staged change, whatever the lists held: the log holds it in its net effect, a name in the
opposite list goes out of it once and the own list keeps its bytes; another name leaves the bytes of
the opposite list and is put at the end of its own list, unless it is there already. -/
theorem stage_exact (hquiet : s.catalog.IsQuiet) (hr : s.store.IsReadable w.tree)
    (h : w.perform (s.stage o name) = (.ok (), v)) :
    ∃ n l, validName name = .ok n ∧ n = Text.trim name ∧ s.store.Holds w.tree l ∧
      s.store.logIn v.tree = .ok (Log.net (l.log ++ [⟨o, n⟩])) ∧
      (n ∈ l.names o.opposite →
        s.store.itemsIn v.tree (.ofOperation o.opposite) = .ok ((l.names o.opposite).erase n) ∧
        s.store.KeepsFile (.ofOperation o) w.tree v.tree) ∧
      (n ∉ l.names o.opposite →
        s.store.KeepsFile (.ofOperation o.opposite) w.tree v.tree ∧
        (n ∈ l.names o → s.store.KeepsFile (.ofOperation o) w.tree v.tree) ∧
        (n ∉ l.names o →
          s.store.itemsIn v.tree (.ofOperation o) = .ok (l.names o ++ [n]))) := by
  obtain ⟨l, hl⟩ := hr.exists_holds
  obtain ⟨n, u, hvalid, hlogged, hmoved⟩ := staged_of_ok hquiet h
  obtain ⟨hn, hitem⟩ := validName_ok hvalid
  have hlog := hmoved.logIn.trans (hl.logged hitem hlogged).log
  have hmove := hmoved.rewrites (hl.names.logged hlogged) hitem
  have hrewrites := hmove.of_keepsFile hlogged.keepsFile
  exact ⟨n, l, hvalid, hn, hl, hlog, hrewrites.takenBack,
    fun hmem ↦ ⟨hrewrites.opposite hmem, hrewrites.kept hmem, hrewrites.recorded hmem⟩⟩

def contested : StoredList → Option String
  | .add => some "vim\n git \nvim\n\n"
  | .remove => some "nano\nvim\r\n nano\n\tvim"
  | .unstaged => some "+ nano\nno change\n -  nano\n- git\n"

def heldContested : Lists where
  names
    | .add => ["vim", "git", "vim"]
    | .remove => ["nano", "vim", "nano", "vim"]
  log := [⟨.add, "nano"⟩, ⟨.remove, "nano"⟩, ⟨.remove, "git"⟩]

theorem holds_contested :
    Store.Holds ⟨Config.bare.base⟩ (World.spelled contested).tree heldContested where
  names o := by
    rw [itemsIn_spelled]
    cases o <;> exact congrArg Except.ok (by decide)
  log := by
    rw [Store.logIn, itemsIn_spelled]
    exact congrArg Except.ok (by decide)

theorem stage_exact_contested :
    ∃ v, (World.spelled contested).perform (OpenSession.bare.session.stage .add " vim ") =
        (.ok (), v) ∧
      Store.logIn ⟨Config.bare.base⟩ v.tree = .ok [⟨.remove, "git"⟩, ⟨.add, "vim"⟩] ∧
      Store.itemsIn ⟨Config.bare.base⟩ v.tree .remove = .ok ["nano", "nano", "vim"] ∧
      Store.KeepsFile ⟨Config.bare.base⟩ .add (World.spelled contested).tree v.tree := by
  have hquiet : OpenSession.bare.session.catalog.IsQuiet := Catalog.isQuiet_fixed _
  have hr := isReadable_spelled contested
  have hvalid : validName " vim " = .ok "vim" := rfl
  have hok := (stage_ok_iff (s := OpenSession.bare.session) (o := .add) hquiet hr
    holds_contested.names).2 ⟨"vim", hvalid, rfl, .inr (lookUp_ok Catalog.isFull_full _ "vim")⟩
  obtain ⟨r, v, h⟩ : ∃ r v, (World.spelled contested).perform
    (OpenSession.bare.session.stage .add " vim ") = (r, v) := ⟨_, _, rfl⟩
  obtain rfl : r = .ok () := by rwa [h] at hok
  obtain ⟨n, l, hn, -, hl, hlog, htaken, -⟩ := stage_exact hquiet hr h
  obtain rfl : n = "vim" := Except.ok.inj (hn.symm.trans hvalid)
  have hremoved : l.names .remove = heldContested.names .remove :=
    hl.names.eq (holds_contested.names .remove)
  have hlogged : l.log = heldContested.log :=
    Except.ok.inj (hl.log.symm.trans holds_contested.log)
  have hnet : Log.net (heldContested.log ++ [⟨.add, "vim"⟩]) =
    [⟨.remove, "git"⟩, ⟨.add, "vim"⟩] := by decide
  obtain ⟨hitems, hkept⟩ := htaken (hremoved ▸ by decide)
  rw [hlogged, hnet] at hlog
  refine ⟨v, h, hlog, hitems.trans ?_, hkept⟩
  exact congrArg (fun names ↦ Except.ok (names.erase "vim")) hremoved

end Session

end PackageStaging
