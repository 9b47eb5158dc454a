import PackageStaging.Proofs.Session.History

namespace PackageStaging

def Catalog.IsFull (c : Catalog Simulation) : Prop :=
  ∀ (w : World) (name : String), (w.perform (c.lookup name)).1 = .ok ()

theorem Session.lookUp_ok {s : Session Simulation} (h : s.catalog.IsFull) (w : World)
    (name : String) : (w.perform (s.lookUp name)).1 = .ok () := by
  unfold lookUp
  induction Text.words name generalizing w with
  | nil => rfl
  | cons word words ih =>
    have hword := h w word
    rcases hlookup : w.perform (s.catalog.lookup word) with ⟨r, v⟩
    rw [hlookup] at hword
    obtain rfl : r = .ok () := hword
    have hforM : (word :: words).forM s.catalog.lookup =
        s.catalog.lookup word >>= fun _ ↦ words.forM s.catalog.lookup := rfl
    rw [hforM, World.perform_bind_ok hlookup]
    exact ih v

namespace Call

def isPlain : Call → Bool
  | clear => true
  | stage _ name => (Session.validName name).isOk
  | _ => false

theorem staysAt_of_isPlain {c : Call} (h : c.isPlain) (base : Path) : c.StaysAt base := by
  cases c with
  | reopen config catalog => cases h
  | _ => trivial

end Call

theorem Session.exists_validName {o : Operation} {name : String}
    (h : (Call.stage o name).isPlain) : ∃ n, validName name = .ok n := by
  cases hname : validName name with
  | ok n => exact ⟨n, rfl⟩
  | error e => simp [Call.isPlain, hname, Except.isOk, Except.toBool] at h

namespace OpenSession

variable {l : OpenSession} {base : Path} {h : History} {calls : List Call}

theorem Follows.clear_ok (hl : l.Follows base h) : (l.step .clear).1 = .ok () := by
  have he := effect_step (c := .clear) hl.isAt trivial
  generalize (l.step .clear).1 = r at he ⊢
  generalize (l.step .clear).2.world.tree = t at he
  cases he with
  | cleared save => rfl
  | uncleared e stuck => exact absurd stuck (hl.stands.not_isStuck hl.holds)

theorem Follows.stage_ok (hl : l.Follows base h) {o : Operation} {name n : String}
    (hvalid : Session.validName name = .ok n) (hopen : l.session.gate.isOpenIn l.world.tree)
    (hfull : l.session.catalog.IsFull) : (l.step (.stage o name)).1 = .ok () := by
  have hstands := hl.stands
  have hholds := hl.holds
  rw [← hl.isAt.store] at hstands hholds
  rw [step_stage]
  exact Session.stage_ok_of_holds hl.isAt.quiet hstands hholds hvalid hopen
    fun u _ ↦ Session.lookUp_ok hfull u n

theorem Follows.run_plain (hl : l.Follows base {})
    (hgate : l.session.gate.status ≠ .requiresAgreement) (hfull : l.session.catalog.IsFull)
    (hcalls : ∀ c ∈ calls, c.isPlain) :
    (l.run calls).session = l.session ∧
      l.history calls = calls.foldl (fun h c ↦ h.after c (.ok ())) {} := by
  induction calls using List.reverseRecOn with
  | nil => exact ⟨rfl, rfl⟩
  | append_singleton calls c ih =>
    obtain ⟨hinit, hlast⟩ := List.forall_mem_append.1 hcalls
    obtain ⟨hsession, hhistory⟩ := ih hinit
    have hnow := hl.run fun d hd ↦ Call.staysAt_of_isPlain (hinit d hd) base
    replace hlast := hlast c (List.mem_singleton_self c)
    rw [run_concat, history_concat, List.foldl_append, ← hhistory]
    cases c with
    | clear =>
      refine ⟨by rw [step_clear]; exact hsession, ?_⟩
      rw [hnow.clear_ok]
      rfl
    | stage o name =>
      obtain ⟨n, hvalid⟩ := Session.exists_validName hlast
      refine ⟨by rw [step_stage]; exact hsession, ?_⟩
      have hopen : (l.run calls).session.gate.isOpenIn (l.run calls).world.tree := by
        rw [hsession]
        simp [Gate.isOpenIn, hgate]
      rw [hnow.stage_ok hvalid hopen (hsession ▸ hfull)]
      rfl
    | _ => cases hlast

end OpenSession

namespace World

def bare : World where
  tree := .empty ["state"]
  moment := ""
  answer? _ := none
  requests := []
  lookups := []

end World

def Config.bare : Config where
  status := .enabled
  addVerb := "install"
  removeVerb := "purge"
  baseDirectory := some ⟨"/state"⟩

def Catalog.full : Catalog Simulation := .fixed fun _ ↦ .ok ()

theorem Catalog.isFull_full : Catalog.full.IsFull := fun _ _ ↦ rfl

theorem isReachable_bare : Store.IsReachable ⟨Config.bare.base⟩ World.bare.tree ["state"] := by
  intro list
  have hstart : World.bare.tree.start ((⟨Config.bare.base⟩ : Store).path list) = .ok [] := by
    cases list <;> rfl
  exact ⟨FileTree.start_ok hstart _, rfl, _, rfl⟩

theorem isFresh_bare : World.bare.IsFresh Config.bare.base := by
  refine World.isFresh_of_enters (isReachable_bare .add).enters ?_
  intro list
  cases list <;> rfl

namespace OpenSession

variable {calls : List Call}

def bare : OpenSession where
  session := ⟨⟨Config.bare.base⟩, ⟨.enabled, Config.bare.agreementFile⟩, .full,
    Config.bare.synthesizer⟩
  world := (World.bare.perform (Session.start .bare .full)).2

theorem start_bare : World.bare.perform (Session.start .bare .full) =
    (.ok bare.session, bare.world) := by
  obtain ⟨u, hu⟩ : ∃ u, World.bare.perform (Session.start .bare .full) = (.ok bare.session, u) :=
    Session.start_ok isReachable_bare
  rw [bare, hu]
  rfl

theorem follows_bare : bare.Follows Config.bare.base {} :=
  Follows.of_start start_bare (Catalog.isQuiet_fixed _) isFresh_bare

theorem history_bare (hcalls : ∀ c ∈ calls, c.isPlain) :
    bare.history calls = calls.foldl (fun h c ↦ h.after c (.ok ())) {} :=
  (follows_bare.run_plain (by decide) Catalog.isFull_full hcalls).2

end OpenSession

end PackageStaging
