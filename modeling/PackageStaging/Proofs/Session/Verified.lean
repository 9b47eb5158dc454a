import PackageStaging.Proofs.Session.Confined
import PackageStaging.Proofs.Session.Edits
import PackageStaging.Proofs.Text.Words

namespace PackageStaging

/-- A catalog that accepts the words of a kind and no others; its lookups change no file. -/
structure Catalog.Accepts (c : Catalog Simulation) (known : String → Prop) : Prop where
  quiet : c.IsQuiet
  lookup_iff (w : World) (word : String) : (w.perform (c.lookup word)).1 = .ok () ↔ known word

def Catalog.knowing (words : List String) : Catalog Simulation :=
  .fixed fun word ↦ if word ∈ words then .ok () else .error (.packageNotFound word)

theorem Catalog.accepts_knowing (words : List String) :
    (Catalog.knowing words).Accepts (· ∈ words) where
  quiet := isQuiet_fixed _
  lookup_iff w word := by
    change (if word ∈ words then _ else _) = _ ↔ _
    split <;> simp [*]

/-- A name that has words, all of them of a kind. -/
structure IsVerified (known : String → Prop) (n : String) : Prop where
  ne_nil : Text.words n ≠ []
  known : ∀ word ∈ Text.words n, known word

variable {known : String → Prop}

theorem Session.known_of_knows {s : Session Simulation} {w : World} {n : String}
    (hcatalog : s.catalog.Accepts known) (h : s.Knows w n) :
    ∀ word ∈ Text.words n, known word := by
  unfold Knows lookUp at h
  generalize Text.words n = words at h ⊢
  induction words generalizing w with
  | nil => simp
  | cons word words ih =>
    have hforM : (word :: words).forM s.catalog.lookup =
        s.catalog.lookup word >>= fun _ ↦ words.forM s.catalog.lookup := rfl
    rw [hforM] at h
    have hword := hcatalog.lookup_iff w word
    rcases hlookup : w.perform (s.catalog.lookup word) with ⟨r, v⟩
    rw [hlookup] at hword
    cases r with
    | error e =>
      rw [World.perform_bind, hlookup] at h
      cases h
    | ok a =>
      rw [World.perform_bind_ok hlookup] at h
      exact List.forall_mem_cons.2 ⟨hword.1 rfl, ih h⟩

structure Lists.AreVerified (known : String → Prop) (lists : Lists) : Prop where
  names (o : Operation) : ∀ n ∈ lists.names o, IsVerified known n
  log : ∀ c ∈ lists.log, IsVerified known c.name

namespace Lists.AreVerified

variable {lists : Lists}

theorem empty : AreVerified known .empty := ⟨fun _ ↦ nofun, nofun⟩

theorem stage (h : lists.AreVerified known) {c : Change} (hc : IsVerified known c.name) :
    (lists.stage c).AreVerified known where
  names o n hn := by
    rcases mem_move hn with hn | rfl
    · exact h.names o n hn
    · exact hc
  log d hd := by
    rcases List.mem_append.1 ((Log.net_sublist _).subset hd) with hd | hd
    · exact h.log d hd
    · rwa [List.mem_singleton.1 hd]

theorem clear (h : lists.AreVerified known) : lists.clear.AreVerified known := ⟨h.names, nofun⟩

theorem after (h : lists.AreVerified known) {c : Call} {r : Except StageError Unit}
    (hstage : ∀ o name, c = .stage o name → r = .ok () → IsVerified known (Text.trim name)) :
    (lists.after c r).AreVerified known := by
  cases r with
  | error e => cases c <;> exact h
  | ok a =>
    cases c with
    | stage o name => exact h.stage (hstage o name rfl rfl)
    | clear => exact h.clear
    | accept | ask | reopen => exact h

/-- A log that a summary was written over has the recorded names and no others. -/
theorem changes (h : lists.AreVerified known) :
    AreVerified known { lists with log := lists.changes } where
  names := h.names
  log c hc := by
    rcases List.mem_append.1 hc with hc | hc
    · obtain ⟨n, hn, rfl⟩ := List.mem_map.1 hc
      exact h.names .add n hn
    · obtain ⟨n, hn, rfl⟩ := List.mem_map.1 hc
      exact h.names .remove n hn

end Lists.AreVerified

/-- A path that leads to neither list of names of a store. -/
def Store.SparesNames (s : Store) (t : FileTree) (p : Path) : Prop :=
  ∀ (o : Operation) place, t.locate p = .ok place → t.locate (s.path (.ofOperation o)) ≠ .ok place

theorem Store.SparesNames.congr {s : Store} {t u : FileTree} {p : Path} (h : s.SparesNames t p)
    (hdirectories : t.SameDirectories u) : s.SparesNames u p := by
  intro o place hplace hlist
  exact h o place (hdirectories.locate_iff.1 hplace) (hdirectories.locate_iff.1 hlist)

theorem Store.Stands.itemsIn_changesOnly {s : Store} {t u : FileTree} {p : Path}
    {list : StoredList} (hs : s.Stands t) (h : t.ChangesOnly u [p])
    (hlist : ∀ place, t.locate p = .ok place → t.locate (s.path list) ≠ .ok place) :
    s.itemsIn u list = s.itemsIn t list := by
  obtain ⟨content, mode, hm⟩ := hs list
  have hkept : u.stat? (s.path list) = t.stat? (s.path list) := by
    refine h.stat?_eq fun q hq place hplace hq' ↦ ?_
    rw [List.mem_singleton.1 hq] at hq'
    exact hlist place hq' hplace
  rw [hm] at hkept
  exact itemsIn_congr ((FileTree.read_of_stat? hkept).trans (FileTree.read_of_stat? hm).symm)

/-- An errand that keeps to a base directory and to what a catalog accepts, and writes no summary
over a list of names. -/
def Errand.KeepsTo (base : Path) (known : String → Prop) (t : FileTree) : Errand → Prop
  | .request (.call (.reopen c catalog)) => c.base = base ∧ catalog.Accepts known
  | .writeSummary path => Store.SparesNames ⟨base⟩ t path
  | _ => True

theorem Errand.KeepsTo.staysAt {base : Path} {t : FileTree} {e : Errand}
    (h : e.KeepsTo base known t) : e.StaysAt base := by
  cases e with
  | writeSummary path => trivial
  | request r =>
    cases r with
    | question q => trivial
    | call c =>
      cases c with
      | reopen config catalog => exact ⟨h.1, h.2.quiet⟩
      | _ => trivial

namespace OpenSession

variable {l : OpenSession} {base : Path} {lists : Lists} {t : FileTree} {e : Errand}
  {errands : List Errand}

/-- A session that records verified names alone. -/
structure Vouches (l : OpenSession) (base : Path) (known : String → Prop) (t : FileTree) :
    Prop where
  directories : t.SameDirectories l.world.tree
  catalog : l.session.catalog.Accepts known
  verified : ∃ lists, l.Records base lists ∧ lists.AreVerified known

theorem accepts_attend (hcatalog : l.session.catalog.Accepts known)
    (he : e.KeepsTo base known t) : (l.attend e).2.session.catalog.Accepts known := by
  cases e with
  | writeSummary path => exact hcatalog
  | request r =>
    cases r with
    | question q => rwa [attend_question]
    | call c =>
      rw [attend_call]
      cases c with
      | stage o name => rwa [step_stage]
      | clear => rwa [step_clear]
      | accept => rwa [step_accept]
      | ask q => rwa [step_ask]
      | reopen config catalog =>
        rw [step, Call.act]
        rcases hstart : l.world.perform (Session.start config catalog) with ⟨r, v⟩
        rcases Session.start_cases hstart with ⟨e, rfl, -⟩ | ⟨rfl, -⟩
        · exact hcatalog
        · exact he.2

/-- Where staging a name succeeds, its words are known, or a removal of it is on record. -/
theorem Has.isVerified_of_stage_ok (hl : l.Has base lists)
    (hcatalog : l.session.catalog.Accepts known) (hverified : lists.AreVerified known)
    {o : Operation} {name : String} (hok : (l.step (.stage o name)).1 = .ok ()) :
    IsVerified known (Text.trim name) := by
  obtain ⟨n, hvalid, -, hlets⟩ := hl.stage_ok_iff.1 hok
  obtain ⟨rfl, hitem⟩ := Session.validName_ok hvalid
  rcases hlets with ⟨-, hmem⟩ | hknows
  · exact hverified.names .remove _ hmem
  · exact ⟨hitem.words_ne_nil, Session.known_of_knows hcatalog hknows⟩

/-- A summary that spares the lists of names is written elsewhere, or becomes the log. -/
theorem Records.writeSummary (hl : l.Records base lists) {path : Path}
    (hspares : Store.SparesNames ⟨base⟩ l.world.tree path) :
    ∃ log, (log = lists.log ∨ log = lists.changes) ∧
      (l.attend (.writeSummary path)).2.Records base { lists with log } := by
  have hchanges : l.world.tree.ChangesOnly (l.attend (.writeSummary path)).2.world.tree [path] :=
    confined_attend (e := .writeSummary path) hl.isAt hl.stands.isOpened trivial
  obtain ⟨hat, hstands, hholds⟩ := hl
  rcases hwrite : l.world.perform (l.session.writeSummary path) with ⟨r, v⟩
  rw [attend, hwrite] at hchanges ⊢
  have hnames : Store.HoldsNames ⟨base⟩ v.tree lists.names := fun o ↦
    (hstands.itemsIn_changesOnly hchanges (hspares o)).trans (hholds.names o)
  have hstill := hstands.changesOnly hchanges
  have hsummary := hholds.names
  rw [← hat.store] at hsummary
  -- The path need not be that of the log to lead to it.
  by_cases hlog : ∃ place, l.world.tree.locate path = .ok place ∧
      l.world.tree.locate (Store.path ⟨base⟩ .unstaged) = .ok place
  · rcases Session.writeSummary_of_holdsNames hsummary hwrite with rfl | hread
    · exact ⟨_, .inl rfl, hat, hstands, hholds⟩
    · obtain ⟨place, hplace, hplace'⟩ := hlog
      have hproper := hholds.names.isProper_changes
      refine ⟨_, .inr rfl, hat, hstill, hnames, Store.logIn_of_read ?_ hproper⟩
      rw [hproper.ofItems_render, ← hread]
      exact FileTree.read_eq_of_locate (hchanges.locate_iff.2 hplace')
        (hchanges.locate_iff.2 hplace)
  · refine ⟨_, .inl rfl, hat, hstill, hnames, ?_⟩
    have hkept := hholds.log
    rwa [Store.logIn, ← hstands.itemsIn_changesOnly hchanges fun place h h' ↦ hlog ⟨place, h, h'⟩,
      ← Store.logIn] at hkept

theorem Vouches.attend (hl : l.Vouches base known t) (he : e.KeepsTo base known t) :
    (l.attend e).2.Vouches base known t := by
  obtain ⟨hdirectories, hcatalog, lists, hrecords, hverified⟩ := hl
  have hconfined := confined_attend hrecords.isAt hrecords.stands.isOpened he.staysAt
  refine ⟨hdirectories.trans hconfined.changesOnly.toSameDirectories,
    accepts_attend hcatalog he, ?_⟩
  cases e with
  | writeSummary path =>
    -- The path still leads where it led in `t`, so it spares the lists of names now, too.
    obtain ⟨log, hlog, hnow⟩ := hrecords.writeSummary (Store.SparesNames.congr he hdirectories)
    refine ⟨_, hnow, ?_⟩
    rcases hlog with rfl | rfl
    · exact hverified
    · exact hverified.changes
  | request r =>
    cases r with
    | question q =>
      rw [attend_question]
      exact ⟨lists, hrecords, hverified⟩
    | call c =>
      refine ⟨_, hrecords.step he.staysAt, hverified.after ?_⟩
      rintro o name rfl hok
      exact hrecords.has.isVerified_of_stage_ok hcatalog hverified hok

def knowing (words : List String) : OpenSession where
  session := { bare.session with catalog := .knowing words }
  world := (World.bare.perform (Session.start .bare (.knowing words))).2

theorem start_knowing (words : List String) :
    World.bare.perform (Session.start .bare (.knowing words)) =
      (.ok (knowing words).session, (knowing words).world) := by
  obtain ⟨u, hu⟩ : ∃ u, World.bare.perform (Session.start .bare (.knowing words)) =
      (.ok (knowing words).session, u) := Session.start_ok isReachable_bare
  rw [knowing, hu]
  rfl

theorem sameDirectories_knowing (words : List String) :
    World.bare.tree.SameDirectories (knowing words).world.tree := by
  refine Session.start_induction ?_ ?_ (start_knowing words)
  · intro list t u ht hnone hsave
    exact ht.trans (FileTree.sameDirectories_write_child list.isEntryName hsave)
  · rw [World.withDirectory_of_enters (isReachable_bare .add).enters]
    exact .refl _

theorem sparesNames_knowing (words : List String) {path : Path} {place : Place}
    (hplace : World.bare.tree.locate path = .ok place)
    (hne : ∀ o, place ≠ [(StoredList.ofOperation o).fileName, "state"]) :
    Store.SparesNames ⟨Config.bare.base⟩ (knowing words).world.tree path := by
  refine Store.SparesNames.congr ?_ (sameDirectories_knowing words)
  intro o other hother hlist
  cases hplace.symm.trans hother
  have hentry := (isReachable_bare (.ofOperation o)).locate (StoredList.isEntryName _)
  exact hne o (Except.ok.inj (hlist.symm.trans hentry))

/-- All names that a session comes to record are made of words that the catalog accepts, as long as
no summary is written over a list of names. -/
theorem recorded_isVerified {w : World} {config : Config} {catalog : Catalog Simulation}
    (hopen : w.perform (Session.start config catalog) = (.ok l.session, l.world))
    (hcatalog : catalog.Accepts known) (hfresh : w.IsFresh config.base)
    (herrands : ∀ e ∈ errands, e.KeepsTo config.base known l.world.tree) :
    ∃ lists : Lists, (l.after errands).Shows lists ∧
      (∀ o, ∀ n ∈ lists.names o, IsVerified known n) ∧
      ∀ c ∈ lists.log, IsVerified known c.name := by
  have hsession : l.session.catalog.Accepts known := by
    rcases Session.start_cases hopen with ⟨e, he, -⟩ | ⟨hs, -⟩
    · cases he
    · rw [Except.ok.inj hs]
      exact hcatalog
  have hstart : l.Vouches config.base known l.world.tree :=
    ⟨.refl _, hsession, _, .of_start hopen hcatalog.quiet hfresh, .empty⟩
  obtain ⟨-, -, lists, hrecords, hverified⟩ :=
    after_induction (P := fun k ↦ k.Vouches config.base known l.world.tree) hstart Vouches.attend
      herrands
  exact ⟨lists, hrecords.has.shows, hverified.names, hverified.log⟩

theorem recorded_isVerified_knowing : ∃ lists : Lists,
    ((knowing ["vim"]).after [.stage .remove "vim", .clear, .stage .add " vim ",
      .stage .add "emacs", .writeSummary ⟨"/state/packages.unstaged"⟩,
      .reopen .bare (.knowing ["vim"]), .writeSummary ⟨"/summary"⟩]).Shows lists ∧
      (∀ o, ∀ n ∈ lists.names o, IsVerified (· ∈ ["vim"]) n) ∧
      ∀ c ∈ lists.log, IsVerified (· ∈ ["vim"]) c.name := by
  have hlog : World.bare.tree.locate ⟨"/state/packages.unstaged"⟩ =
      .ok ["packages.unstaged", "state"] := rfl
  have hsummary : World.bare.tree.locate ⟨"/summary"⟩ = .ok ["summary"] := rfl
  refine recorded_isVerified (start_knowing _) (Catalog.accepts_knowing _) isFresh_bare ?_
  simp only [List.forall_mem_cons, List.not_mem_nil, IsEmpty.forall_iff, implies_true, and_true]
  exact ⟨trivial, trivial, trivial, trivial,
    sparesNames_knowing _ hlog fun o ↦ by cases o <;> decide,
    ⟨rfl, Catalog.accepts_knowing _⟩, sparesNames_knowing _ hsummary fun o ↦ by cases o <;> decide⟩

theorem Has.packages_of_summary_over (h : l.Has base lists)
    (hopen : l.session.gate.isOpenIn l.world.tree) (hne : lists.changes ≠ []) (o : Operation) :
    (l.attend (.writeSummary (Store.path ⟨base⟩ (.ofOperation o)))).2.packages o =
      .ok (lists.changes.map Change.render) := by
  have hholds := h.holds
  rw [← h.isAt.store] at hholds
  have hitems := hholds.isItem_changes
  obtain ⟨u, hu⟩ := h.readable.exists_save (.ofOperation o) (lists.changes.map Change.render)
  have htext : Text.ofItems (lists.changes.map Change.render) ≠ "" := by
    intro hnil
    apply hne
    rw [← List.map_eq_nil_iff, ← Text.items_ofItems hitems, hnil]
    rfl
  rcases hperform : l.world.perform
    (l.session.writeSummary (Store.path ⟨base⟩ (.ofOperation o))) with ⟨r, v⟩
  have hread := Session.read_writeSummary (Session.perform_summary hopen hholds) htext hu
    (FileTree.read_write_self (StoredList.isEntryName _) hu) hperform
  rw [packages, Session.perform_packages, attend, hperform, h.isAt.store,
    Store.itemsIn_of_read hread, Text.items_ofItems hitems]

/-- A summary that is written over the list of additions is read as names, and the tags in it are
no words of the catalog. -/
theorem recorded_unverified :
    let now := (knowing ["vim"]).after [.stage .add "vim", .writeSummary ⟨"/state/packages.add"⟩]
    now.packages .add = .ok ["+ vim"] ∧ Text.words "+ vim" = ["+", "vim"] ∧
      ¬ IsVerified (· ∈ ["vim"]) "+ vim" := by
  intro now
  have hwords : Text.words "+ vim" = ["+", "vim"] := by decide
  refine ⟨?_, hwords, fun hverified ↦ ?_⟩
  · have hstart : (knowing ["vim"]).Has Config.bare.base .empty :=
      (Records.of_start (start_knowing _) (Catalog.isQuiet_fixed _) isFresh_bare).has
    have hknows : (knowing ["vim"]).session.Knows (knowing ["vim"]).world "vim" := by
      rw [Session.Knows, Session.lookUp, show Text.words "vim" = ["vim"] by decide]
      rfl
    have hok : ((knowing ["vim"]).step (.stage .add "vim")).1 = .ok () :=
      hstart.stage_ok_iff.2 ⟨"vim", rfl, rfl, .inr hknows⟩
    have hopen : ((knowing ["vim"]).step (.stage .add "vim")).2.session.gate.isOpenIn
        ((knowing ["vim"]).step (.stage .add "vim")).2.world.tree := by
      rw [step_stage]
      rfl
    have hpath : Store.path ⟨Config.bare.base⟩ (.ofOperation .add) = ⟨"/state/packages.add"⟩ := by
      decide
    have hhas := hstart.stage hok
    have hchanges : (Lists.empty.stage ⟨.add, Text.trim "vim"⟩).changes =
        [⟨.add, "vim"⟩] := by decide
    have hover := hhas.packages_of_summary_over hopen
      (hchanges.trans_ne (List.cons_ne_nil _ _)) .add
    rw [hpath, hchanges] at hover
    simp only [now, after_cons, after_nil, Errand.stage, attend_call]
    rw [hover]
    exact congrArg Except.ok (by decide)
  · have htag := hverified.known "+" (by rw [hwords]; exact List.mem_cons_self)
    exact absurd htag (by decide)

end OpenSession

end PackageStaging
