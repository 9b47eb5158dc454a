import PackageStaging.Proofs.Session.Requests
import PackageStaging.Proofs.Store.Readable
import PackageStaging.Proofs.TwoWorlds

namespace PackageStaging

variable {base base₁ base₂ : Path} {t₁ t₂ u₁ u₂ : FileTree}

def FileTree.HoldsFile (t : FileTree) (p : Path) : Prop :=
  ∃ content mode, t.stat? p = some (.file content mode)

/-- Two base directories hold the same lists, however their files spell them, and have an agreement
or do not have one both. -/
structure SameState (base₁ base₂ : Path) (t₁ t₂ : FileTree) : Prop where
  left : Store.IsReadable ⟨base₁⟩ t₁
  right : Store.IsReadable ⟨base₂⟩ t₂
  names (o : Operation) :
    Store.itemsIn ⟨base₁⟩ t₁ (.ofOperation o) = Store.itemsIn ⟨base₂⟩ t₂ (.ofOperation o)
  log : Store.logIn ⟨base₁⟩ t₁ = Store.logIn ⟨base₂⟩ t₂
  agreement :
    t₁.stat? (base₁.child Config.agreementName) = none ∧
        t₂.stat? (base₂.child Config.agreementName) = none ∨
      t₁.HoldsFile (base₁.child Config.agreementName) ∧
        t₂.HoldsFile (base₂.child Config.agreementName)

/-- Two worlds differ in nothing but files, and in those as two base directories that are alike. -/
structure World.Alike (base₁ base₂ : Path) (w₁ w₂ : World) : Prop where
  state : SameState base₁ base₂ w₁.tree w₂.tree
  outside : w₁.outside = w₂.outside

/-- Lookups that neither read nor change a file. -/
structure Catalog.IgnoresFiles (c : Catalog Simulation) : Prop where
  quiet : c.IsQuiet
  blind (name : String) :
    Agree (fun w₁ w₂ ↦ w₁.outside = w₂.outside) (c.lookup name) (c.lookup name)

theorem Catalog.ignoresFiles_fixed (answer : String → Except StageError Unit) :
    (Catalog.fixed answer).IgnoresFiles where
  quiet := isQuiet_fixed answer
  blind name _ _ h :=
    ⟨rfl, congrArg (fun w : World ↦ { w with lookups := w.lookups ++ [name] }) h⟩

theorem WebCatalog.ignoresFiles_toCatalog (c : WebCatalog) :
    (c.toCatalog : Catalog Simulation).IgnoresFiles where
  quiet := c.isQuiet_toCatalog
  blind name := by
    refine WebCatalog.agree_lookup (R := fun w₁ w₂ ↦ w₁.outside = w₂.outside) ?_ ?_ c name
    · intro w₁ w₂ h
      have hanswer := congrArg World.answer? h
      exact hanswer
    · intro w₁ w₂ request h
      have hnoted := congrArg (fun w : World ↦ { w with requests := w.requests ++ [request] }) h
      exact hnoted

namespace SameState

variable {list : StoredList} {items : List String}

theorem save (h : SameState base₁ base₂ t₁ t₂)
    (h₁ : Store.saveIn ⟨base₁⟩ t₁ list items = .ok u₁)
    (h₂ : Store.saveIn ⟨base₂⟩ t₂ list items = .ok u₂) : SameState base₁ base₂ u₁ u₂ where
  left := h.left.save h₁
  right := h.right.save h₂
  names o := by
    by_cases ho : .ofOperation o = list
    · rw [ho, Store.itemsIn_save h₁, Store.itemsIn_save h₂]
    · rw [Store.itemsIn_save_of_ne h₁ ho, Store.itemsIn_save_of_ne h₂ ho, h.names]
  log := by
    by_cases hl : .unstaged = list
    · rw [Store.logIn, Store.logIn, hl, Store.itemsIn_save h₁, Store.itemsIn_save h₂]
    · rw [Store.logIn_save_of_ne h₁ hl, Store.logIn_save_of_ne h₂ hl, h.log]
  agreement := by
    have hkept₁ := Store.stat?_agreement_save h₁
    have hkept₂ := Store.stat?_agreement_save h₂
    simpa only [FileTree.HoldsFile, hkept₁, hkept₂] using h.agreement

theorem write_agreement {content₁ content₂ : ByteArray} (h : SameState base₁ base₂ t₁ t₂)
    (h₁ : t₁.write (base₁.child Config.agreementName) content₁ = .ok u₁)
    (h₂ : t₂.write (base₂.child Config.agreementName) content₂ = .ok u₂) :
    SameState base₁ base₂ u₁ u₂ := by
  have hname := Config.isEntryName_agreementName
  have hne := Config.agreementName_ne
  refine ⟨h.left.write_other hname hne h₁, h.right.write_other hname hne h₂, ?_, ?_, .inr ?_⟩
  · intro o
    rw [Store.itemsIn_write_other hname hne h₁, Store.itemsIn_write_other hname hne h₂, h.names]
  · have hlog := h.log
    rwa [Store.logIn, Store.logIn, ← Store.itemsIn_write_other hname hne h₁,
      ← Store.itemsIn_write_other hname hne h₂] at hlog
  · exact ⟨⟨_, FileTree.stat?_write_self hname h₁⟩, ⟨_, FileTree.stat?_write_self hname h₂⟩⟩

end SameState

theorem Store.IsReadable.leadsInto_agreement (h : Store.IsReadable ⟨base⟩ t₁) :
    ∃ d, t₁.LeadsInto base Config.agreementName d := by
  obtain ⟨d, hd⟩ := h.isReachable
  have hunstaged := hd .unstaged
  exact ⟨d, FileTree.start_child_of_le hunstaged.start Config.isEntryName_agreementName (by decide)
    (by decide), hunstaged.enters⟩

theorem Store.IsReadable.exists_write_agreement (h : Store.IsReadable ⟨base⟩ t₁)
    (hagreement : t₁.stat? (base.child Config.agreementName) = none ∨
      t₁.HoldsFile (base.child Config.agreementName)) (content : ByteArray) :
    ∃ u, t₁.write (base.child Config.agreementName) content = .ok u := by
  obtain ⟨d, hd⟩ := h.leadsInto_agreement
  have hname := Config.isEntryName_agreementName
  rcases hagreement with hnone | ⟨old, mode, hfile⟩
  · rw [hd.stat? hname] at hnone
    rw [hd.write_eq hname, hnone]
    exact ⟨_, rfl⟩
  · exact FileTree.write_of_file hname hfile content

section Acts

variable {c : Config} {catalog : Catalog Simulation}

theorem agree_load_names (o : Operation) : Agree (World.Alike base₁ base₂)
    (Store.load ⟨base₁⟩ (.ofOperation o)) (Store.load ⟨base₂⟩ (.ofOperation o)) := by
  intro w₁ w₂ h
  rw [Store.perform_load, Store.perform_load]
  exact ⟨h.state.names o, h⟩

theorem agree_loadLog :
    Agree (World.Alike base₁ base₂) (Store.loadLog ⟨base₁⟩) (Store.loadLog ⟨base₂⟩) := by
  intro w₁ w₂ h
  rw [Store.perform_loadLog, Store.perform_loadLog]
  exact ⟨h.state.log, h⟩

theorem agree_save (list : StoredList) (items : List String) : Agree (World.Alike base₁ base₂)
    (Store.save ⟨base₁⟩ list items) (Store.save ⟨base₂⟩ list items) := by
  intro w₁ w₂ h
  obtain ⟨u₁, hu₁⟩ := h.state.left.exists_save list items
  obtain ⟨u₂, hu₂⟩ := h.state.right.exists_save list items
  rw [Store.perform_save, Store.perform_save, hu₁, hu₂]
  exact ⟨rfl, h.state.save hu₁ hu₂, h.outside⟩

theorem agree_saveLog (log : Log) : Agree (World.Alike base₁ base₂)
    (Store.saveLog ⟨base₁⟩ log) (Store.saveLog ⟨base₂⟩ log) :=
  (agree_save _ _).bind fun _ ↦ agree_pure _

theorem isOpenIn_eq (h : SameState base₁ base₂ t₁ t₂) (status : GateStatus) :
    Gate.isOpenIn ⟨status, base₁.child Config.agreementName⟩ t₁ =
      Gate.isOpenIn ⟨status, base₂.child Config.agreementName⟩ t₂ := by
  rcases h.agreement with ⟨h₁, h₂⟩ | ⟨⟨_, _, h₁⟩, ⟨_, _, h₂⟩⟩ <;> simp [Gate.isOpenIn, h₁, h₂]

theorem agree_isAccepted (status : GateStatus) : Agree (World.Alike base₁ base₂)
    (liftM (Gate.isAccepted ⟨status, base₁.child Config.agreementName⟩ : Simulation Bool) :
      ExceptT StageError Simulation Bool)
    (liftM (Gate.isAccepted ⟨status, base₂.child Config.agreementName⟩ : Simulation Bool)) := by
  intro w₁ w₂ h
  simp only [World.perform_lift, Gate.isAccepted_run]
  exact ⟨congrArg _ (isOpenIn_eq h.state status), h⟩

theorem agree_check (status : GateStatus) : Agree (World.Alike base₁ base₂)
    (Gate.check ⟨status, base₁.child Config.agreementName⟩)
    (Gate.check ⟨status, base₂.child Config.agreementName⟩) := by
  refine (agree_isAccepted status).bind fun accepted ↦ ?_
  cases accepted with
  | true => exact agree_pure _
  | false => exact agree_throw _

theorem agree_accept (status : GateStatus) : Agree (World.Alike base₁ base₂)
    (Gate.accept ⟨status, base₁.child Config.agreementName⟩)
    (Gate.accept ⟨status, base₂.child Config.agreementName⟩) := by
  intro w₁ w₂ h
  by_cases hrequired : status = .requiresAgreement
  · have hnow (w : World) : (Clock.stamp : Simulation String) w = (w.moment, w) := rfl
    obtain ⟨u₁, hu₁⟩ := h.state.left.exists_write_agreement
      (h.state.agreement.imp And.left And.left) w₁.moment.toUTF8
    obtain ⟨u₂, hu₂⟩ := h.state.right.exists_write_agreement
      (h.state.agreement.imp And.right And.right) w₂.moment.toUTF8
    simp only [Gate.accept, if_pos hrequired, World.perform_bind, World.perform_lift, hnow,
      World.perform_onFile, World.writeText_run, hu₁, hu₂]
    exact ⟨rfl, h.state.write_agreement hu₁ hu₂, h.outside⟩
  · simp only [Gate.accept, if_neg hrequired]
    exact ⟨rfl, h⟩

theorem agree_lookup (hcatalog : catalog.IgnoresFiles) (name : String) :
    Agree (World.Alike base₁ base₂) (catalog.lookup name) (catalog.lookup name) := by
  intro w₁ w₂ h
  obtain ⟨hresult, houtside⟩ := hcatalog.blind name h.outside
  refine ⟨hresult, ?_, houtside⟩
  rw [hcatalog.quiet name w₁, hcatalog.quiet name w₂]
  exact h.state

variable (base₁ base₂) in
theorem agree_stage (c : Config) (hcatalog : catalog.IgnoresFiles) (o : Operation) (name : String) :
    Agree (World.Alike base₁ base₂) ((Session.ofConfig (c.withBase base₁) catalog).stage o name)
      ((Session.ofConfig (c.withBase base₂) catalog).stage o name) := by
  have hlookUp (n : String) : Agree (World.Alike base₁ base₂)
      ((Session.ofConfig (c.withBase base₁) catalog).lookUp n)
      ((Session.ofConfig (c.withBase base₂) catalog).lookUp n) :=
    Agree.forM (agree_lookup hcatalog) _
  have hlog (d : Change) : Agree (World.Alike base₁ base₂)
      ((Session.ofConfig (c.withBase base₁) catalog).log d)
      ((Session.ofConfig (c.withBase base₂) catalog).log d) :=
    agree_loadLog.bind fun _ ↦ (agree_saveLog _).bind fun _ ↦ agree_pure _
  have hrecord (d : Change) : Agree (World.Alike base₁ base₂)
      ((Session.ofConfig (c.withBase base₁) catalog).record d)
      ((Session.ofConfig (c.withBase base₂) catalog).record d) :=
    (agree_load_names _).bind fun _ ↦ (agree_pure _).ite (agree_save _ _)
  cases o with
  | add =>
    refine (agree_ofExcept _).bind fun n ↦ (agree_check _).bind fun _ ↦ ?_
    refine (agree_load_names .remove).bind fun removed ↦ Agree.ite ?_ ?_
    · exact (hlog _).bind fun _ ↦ agree_save _ _
    · exact (hlookUp n).bind fun _ ↦ (hlog _).bind fun _ ↦ hrecord _
  | remove =>
    refine (agree_ofExcept _).bind fun n ↦ (agree_check _).bind fun _ ↦ ?_
    refine (hlookUp n).bind fun _ ↦ (hlog _).bind fun _ ↦ ?_
    exact (agree_load_names .add).bind fun added ↦ (agree_save _ _).ite (hrecord _)

variable (base₁ base₂) in
theorem agree_answer (c : Config) (catalog : Catalog Simulation) (q : Question) :
    Agree (World.Alike base₁ base₂) (q.answer (Session.ofConfig (c.withBase base₁) catalog))
      (q.answer (Session.ofConfig (c.withBase base₂) catalog)) := by
  have hnames (o : Operation) : Agree (World.Alike base₁ base₂)
      (Store.load ⟨base₁⟩ (.ofOperation o)) (Store.load ⟨base₂⟩ (.ofOperation o)) :=
    agree_load_names o
  cases q with
  | packages o => exact (hnames o).bind fun _ ↦ agree_pure _
  | packagesText o separator =>
    exact ((hnames o).bind fun _ ↦ agree_pure _).bind fun _ ↦ agree_pure _
  | unstaged => exact agree_loadLog.bind fun _ ↦ agree_pure _
  | unstagedNames => exact (agree_loadLog.bind fun _ ↦ agree_pure _).bind fun _ ↦ agree_pure _
  | command t =>
    refine Agree.bind ?_ fun _ ↦ agree_pure _
    cases t with
    | apply => exact agree_loadLog.bind fun _ ↦ agree_pure _
    | upgrade => exact (hnames .add).bind fun _ ↦ (hnames .remove).bind fun _ ↦ agree_pure _
  | summary =>
    refine Agree.bind ((agree_isAccepted _).bind fun accepted ↦ ?_) fun _ ↦ agree_pure _
    refine Agree.ite ?_ (agree_pure _)
    exact (hnames .add).bind fun _ ↦ (hnames .remove).bind fun _ ↦ agree_pure _
  | check => exact (agree_check _).bind fun _ ↦ agree_pure _
  | accepted => exact (agree_isAccepted _).bind fun _ ↦ agree_pure _

end Acts

theorem SameState.of_readsLike (h : SameState base₁ base₂ t₁ t₂)
    (h₁ : Store.ReadsLike base₁ t₁ u₁) (h₂ : Store.ReadsLike base₂ t₂ u₂) :
    SameState base₁ base₂ u₁ u₂ where
  left := h₁.readable
  right := h₂.readable
  names o := by rw [h₁.items, h₂.items, h.names]
  log := by
    have hlog := h.log
    rwa [Store.logIn, Store.logIn, ← h₁.items, ← h₂.items] at hlog
  agreement := by simpa only [FileTree.HoldsFile, h₁.agreement, h₂.agreement] using h.agreement

def Request.IgnoresFiles : Request → Prop
  | call (.reopen _ catalog) => catalog.IgnoresFiles
  | _ => True

namespace OpenSession

variable {l₁ l₂ : OpenSession} {catalog : Catalog Simulation} {requests : List Request}

/-- Two sessions with one configuration but for the base directory, in worlds that are alike. -/
structure Alike (base₁ base₂ : Path) (l₁ l₂ : OpenSession) : Prop where
  worlds : World.Alike base₁ base₂ l₁.world l₂.world
  sessions : ∃ (config : Config) (catalog : Catalog Simulation), catalog.IgnoresFiles ∧
    l₁.session = .ofConfig (config.withBase base₁) catalog ∧
    l₂.session = .ofConfig (config.withBase base₂) catalog

theorem Alike.step (h : Alike base₁ base₂ l₁ l₂) {c : Call}
    (hc : (Request.call c).IgnoresFiles) :
    (l₁.step (c.withBase base₁)).1 = (l₂.step (c.withBase base₂)).1 ∧
      Alike base₁ base₂ (l₁.step (c.withBase base₁)).2 (l₂.step (c.withBase base₂)).2 := by
  rcases l₁ with ⟨s₁, w₁⟩
  rcases l₂ with ⟨s₂, w₂⟩
  obtain ⟨hw, config, catalog, hcatalog, hs₁, hs₂⟩ := h
  dsimp only at hw hs₁ hs₂
  subst hs₁ hs₂
  have hsame {act₁ act₂ : ExceptT StageError Simulation Unit}
      (hagree : Agree (World.Alike base₁ base₂) act₁ act₂) :
      (w₁.perform act₁).1 = (w₂.perform act₂).1 ∧ Alike base₁ base₂
        ⟨.ofConfig (config.withBase base₁) catalog, (w₁.perform act₁).2⟩
        ⟨.ofConfig (config.withBase base₂) catalog, (w₂.perform act₂).2⟩ :=
    ⟨(hagree hw).1, (hagree hw).2, config, catalog, hcatalog, rfl, rfl⟩
  cases c with
  | stage o name =>
    simp only [Call.withBase, step_stage]
    exact hsame (agree_stage base₁ base₂ config hcatalog o name)
  | clear =>
    simp only [Call.withBase, step_clear]
    exact hsame ((agree_saveLog []).bind fun _ ↦ agree_pure _)
  | accept =>
    simp only [Call.withBase, step_accept]
    exact hsame (agree_accept config.status)
  | ask q =>
    simp only [Call.withBase, step_ask, Query.act_eq]
    exact hsame ((agree_answer base₁ base₂ config catalog _).bind fun _ ↦ agree_pure _)
  | reopen config' catalog' =>
    obtain ⟨u₁, hu₁, houtside₁, h₁⟩ :=
      Session.start_of_isReadable (c := config'.withBase base₁) catalog' hw.state.left
    obtain ⟨u₂, hu₂, houtside₂, h₂⟩ :=
      Session.start_of_isReadable (c := config'.withBase base₂) catalog' hw.state.right
    have hstate := hw.state.of_readsLike h₁ h₂
    have houtside : u₁.outside = u₂.outside := houtside₁.trans (hw.outside.trans houtside₂.symm)
    simp only [Call.withBase, step, Call.act, hu₁, hu₂]
    exact ⟨trivial, ⟨hstate, houtside⟩, config', catalog', hc, rfl, rfl⟩

theorem Alike.respond (h : Alike base₁ base₂ l₁ l₂) {r : Request} (hr : r.IgnoresFiles) :
    (l₁.respond (r.withBase base₁)).1 = (l₂.respond (r.withBase base₂)).1 ∧
      Alike base₁ base₂ (l₁.respond (r.withBase base₁)).2 (l₂.respond (r.withBase base₂)).2 := by
  cases r with
  | call c =>
    obtain ⟨hresult, halike⟩ := h.step hr
    exact ⟨congrArg (Except.map fun _ ↦ Reply.done) hresult, halike⟩
  | question q =>
    rcases l₁ with ⟨s₁, w₁⟩
    rcases l₂ with ⟨s₂, w₂⟩
    obtain ⟨hw, config, catalog, hcatalog, hs₁, hs₂⟩ := h
    dsimp only at hw hs₁ hs₂
    subst hs₁ hs₂
    obtain ⟨hreply, hv⟩ := agree_answer base₁ base₂ config catalog q hw
    exact ⟨hreply, hv, config, catalog, hcatalog, rfl, rfl⟩

theorem Alike.converse (h : Alike base₁ base₂ l₁ l₂)
    (hrequests : ∀ r ∈ requests, r.IgnoresFiles) :
    (l₁.converse (requests.map (·.withBase base₁))).1 =
        (l₂.converse (requests.map (·.withBase base₂))).1 ∧
      Alike base₁ base₂ (l₁.converse (requests.map (·.withBase base₁))).2
        (l₂.converse (requests.map (·.withBase base₂))).2 := by
  induction requests generalizing l₁ l₂ with
  | nil => exact ⟨rfl, h⟩
  | cons r requests ih =>
    obtain ⟨hr, hrest⟩ := List.forall_mem_cons.1 hrequests
    obtain ⟨hreply, halike⟩ := h.respond hr
    obtain ⟨hreplies, hlast⟩ := ih halike hrest
    exact ⟨congrArg₂ _ hreply hreplies, hlast⟩

/-- Two base directories that are alike cannot be told apart by sessions with one configuration and
one catalog, and after any requests they are alike again. -/
theorem converse_of_alike {w₁ w₂ : World} (hworlds : World.Alike base₁ base₂ w₁ w₂)
    (config : Config) (hcatalog : catalog.IgnoresFiles)
    (hrequests : ∀ r ∈ requests, r.IgnoresFiles) :
    let told₁ := converse ⟨.ofConfig (config.withBase base₁) catalog, w₁⟩
      (requests.map (·.withBase base₁))
    let told₂ := converse ⟨.ofConfig (config.withBase base₂) catalog, w₂⟩
      (requests.map (·.withBase base₂))
    told₁.1 = told₂.1 ∧ World.Alike base₁ base₂ told₁.2.world told₂.2.world := by
  intro told₁ told₂
  have halike : Alike base₁ base₂ ⟨.ofConfig (config.withBase base₁) catalog, w₁⟩
      ⟨.ofConfig (config.withBase base₂) catalog, w₂⟩ :=
    ⟨hworlds, config, catalog, hcatalog, rfl, rfl⟩
  obtain ⟨hreplies, hlast⟩ := halike.converse hrequests
  exact ⟨hreplies, hlast.worlds⟩

def untidy : StoredList → Option String
  | .add => some "\n vim\r\n\ngit"
  | .remove => some "\t\nnano\n"
  | .unstaged => some "nonsense\n +   vim \r\n"

theorem alike_untidy :
    World.Alike Config.bare.base Config.bare.base (.spelled untidy) .tidy where
  state := {
    left := isReadable_spelled untidy
    right := isReadable_spelled _
    names := by
      intro o
      rw [holds_tidy.names, itemsIn_spelled]
      cases o <;> exact congrArg Except.ok (by decide)
    log := by
      rw [holds_tidy.log, Store.logIn, itemsIn_spelled]
      exact congrArg Except.ok (by decide)
    agreement := .inl ⟨rfl, rfl⟩ }
  outside := rfl

theorem converse_of_alike_untidy :
    let catalog := (WebCatalog.ofSetting none).toCatalog
    let requests : List Request := [.call (.stage .remove " vim "),
      .question (.packagesText .add ""), .call (.reopen .bare .full), .call .clear,
      .call (.stage .add "nano"), .question .summary]
    (converse ⟨.ofConfig (Config.bare.withBase Config.bare.base) catalog, .spelled untidy⟩
        (requests.map (·.withBase Config.bare.base))).1 =
      (converse ⟨.ofConfig (Config.bare.withBase Config.bare.base) catalog, .tidy⟩
        (requests.map (·.withBase Config.bare.base))).1 := by
  intro catalog requests
  have hrequests : ∀ r ∈ requests, r.IgnoresFiles := by
    simp [requests, Request.IgnoresFiles, Catalog.full, Catalog.ignoresFiles_fixed]
  exact (converse_of_alike alike_untidy .bare (WebCatalog.ignoresFiles_toCatalog _) hrequests).1

end OpenSession

end PackageStaging
