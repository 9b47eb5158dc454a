import PackageStaging.Proofs.Change.Restricted
import PackageStaging.Proofs.Session.Edits

namespace PackageStaging

/-- A catalog whose answer to a name hangs on the network alone; lookups change neither the network
nor a file. -/
structure Catalog.IsSteady (c : Catalog Simulation) : Prop where
  quiet : c.IsQuiet
  keeps (name : String) : Keeps World.answer? (c.lookup name)
  blind (name : String) :
    Agree (fun w₁ w₂ ↦ w₁.answer? = w₂.answer?) (c.lookup name) (c.lookup name)

theorem Catalog.isSteady_fixed (answer : String → Except StageError Unit) :
    (Catalog.fixed answer).IsSteady where
  quiet := isQuiet_fixed answer
  keeps _ _ := rfl
  blind _ _ _ h := ⟨rfl, h⟩

theorem WebCatalog.isSteady_toCatalog (c : WebCatalog) :
    (c.toCatalog : Catalog Simulation).IsSteady where
  quiet := c.isQuiet_toCatalog
  keeps name := c.keeps_lookup (fun _ _ ↦ rfl) name
  blind name := c.agree_lookup (fun h ↦ h) (fun _ h ↦ h) name

namespace Session

variable {s : Session Simulation}

theorem knows_congr (hsteady : s.catalog.IsSteady) {w₁ w₂ : World}
    (h : w₁.answer? = w₂.answer?) (n : String) : s.Knows w₁ n ↔ s.Knows w₂ n := by
  have hsame := (Agree.forM hsteady.blind (Text.words n) h).1
  rw [Knows, Knows, lookUp, hsame]

theorem keepsAnswers_stage (hsteady : s.catalog.IsSteady) (o : Operation) (name : String) :
    Keeps World.answer? (s.stage o name) := by
  have hcheck : Keeps World.answer? s.gate.check := fun w ↦ by rw [Gate.perform_check]
  have hlookUp (n : String) : Keeps World.answer? (s.lookUp n) := Keeps.forM hsteady.keeps _
  have hload (p : Operation) : Keeps World.answer? (s.packages p) :=
    (s.store.keepsOutside_load _).comp World.answer?
  have hsave (p : Operation) (items : List String) :
      Keeps World.answer? (s.store.save (.ofOperation p) items) :=
    (s.store.keepsOutside_save _ _).comp World.answer?
  have hlog (c : Change) : Keeps World.answer? (s.log c) :=
    (s.keepsOutside_log c).comp World.answer?
  have hrecord (c : Change) : Keeps World.answer? (s.record c) :=
    (s.keepsOutside_record c).comp World.answer?
  cases o with
  | add =>
    refine (keeps_ofExcept _).bind fun n ↦ hcheck.bind fun _ ↦ (hload _).bind fun _ ↦ ?_
    refine Keeps.ite ?_ ?_
    · exact (hlog _).bind fun _ ↦ hsave .remove _
    · exact (hlookUp n).bind fun _ ↦ (hlog _).bind fun _ ↦ hrecord _
  | remove =>
    refine (keeps_ofExcept _).bind fun n ↦ hcheck.bind fun _ ↦ (hlookUp n).bind fun _ ↦ ?_
    exact (hlog _).bind fun _ ↦ (hload _).bind fun _ ↦ (hsave .add _).ite (hrecord _)

theorem keepsAnswers_clear (s : Session Simulation) : Keeps World.answer? s.clear :=
  Keeps.bind (((s.store.keepsOutside_save _ _).comp World.answer?).bind fun _ ↦ keeps_pure _)
    fun _ ↦ keeps_pure _

end Session

namespace OpenSession

variable {l l₁ l₂ l₃ : OpenSession} {base : Path} {o : Operation} {name : String}

/-- Two sessions that check and ask alike: nothing but their lists can make a difference between
them. -/
structure SameSetting (l₁ l₂ : OpenSession) : Prop where
  session : l₁.session = l₂.session
  network : l₁.world.answer? = l₂.world.answer?
  gate : l₁.session.gate.isOpenIn l₁.world.tree = l₂.session.gate.isOpenIn l₂.world.tree

theorem SameSetting.refl (l : OpenSession) : l.SameSetting l := ⟨rfl, rfl, rfl⟩

theorem SameSetting.symm (h : l₁.SameSetting l₂) : l₂.SameSetting l₁ :=
  ⟨h.session.symm, h.network.symm, h.gate.symm⟩

theorem SameSetting.trans (h : l₁.SameSetting l₂) (h' : l₂.SameSetting l₃) : l₁.SameSetting l₃ :=
  ⟨h.session.trans h'.session, h.network.trans h'.network, h.gate.trans h'.gate⟩

theorem isOpenIn_congr {g : Gate} {t u : FileTree}
    (h : u.stat? g.agreementFile = t.stat? g.agreementFile) : g.isOpenIn u = g.isOpenIn t := by
  rw [Gate.isOpenIn, Gate.isOpenIn, h]

theorem sameSetting_stage (hat : l.session.IsAt base) (hsteady : l.session.catalog.IsSteady)
    (hok : (l.step (.stage o name)).1 = .ok ()) : (l.step (.stage o name)).2.SameSetting l where
  session := by rw [step_stage]
  network := by
    rw [step_stage]
    exact Session.keepsAnswers_stage hsteady o name l.world
  gate := by
    obtain ⟨-, u, ⟨log, -, hlogged⟩, hmoved⟩ := staged_of_ok hat hok
    rw [step_stage] at hmoved ⊢
    refine isOpenIn_congr ?_
    rw [hat.agreementFile]
    have hlog := Store.stat?_agreement_save hlogged
    generalize (l.world.perform (l.session.stage o name)).2.tree = t at hmoved ⊢
    rcases hmoved.unchanged_or_saved with rfl | ⟨p, items, hsave⟩
    · exact hlog
    · exact (Store.stat?_agreement_save hsave).trans hlog

theorem sameSetting_clear (hat : l.session.IsAt base) : (l.step .clear).2.SameSetting l where
  session := by rw [step_clear]
  network := by
    rw [step_clear]
    exact l.session.keepsAnswers_clear l.world
  gate := by
    rw [step_clear]
    refine isOpenIn_congr ?_
    rcases hclear : l.world.perform l.session.clear with ⟨r, v⟩
    rcases Session.clear_cases hclear with ⟨-, hsave⟩ | hstall
    · rw [hat.store] at hsave
      rw [hat.agreementFile]
      exact Store.stat?_agreement_save hsave
    · rw [hstall.unchanged]

section Shares

variable {S : Set String} [DecidablePred (· ∈ S)]

variable (base S) in
structure Shares (l₁ l₂ : OpenSession) : Prop where
  setting : l₁.SameSetting l₂
  steady : l₁.session.catalog.IsSteady
  lists : ∃ lists₁ lists₂, l₁.Has base lists₁ ∧ l₂.Has base lists₂ ∧
    lists₁.log.net = lists₁.log ∧ lists₂.log.net = lists₂.log ∧
    lists₁.restrict S = lists₂.restrict S

theorem Shares.symm (h : Shares base S l₁ l₂) : Shares base S l₂ l₁ where
  setting := h.setting.symm
  steady := h.setting.session ▸ h.steady
  lists := by
    obtain ⟨lists₁, lists₂, h₁, h₂, hfolded₁, hfolded₂, hsame⟩ := h.lists
    exact ⟨lists₂, lists₁, h₂, h₁, hfolded₂, hfolded₁, hsame.symm⟩

theorem Shares.trans (h : Shares base S l₁ l₂) (h' : Shares base S l₂ l₃) :
    Shares base S l₁ l₃ where
  setting := h.setting.trans h'.setting
  steady := h.steady
  lists := by
    obtain ⟨lists₁, lists₂, h₁, h₂, hfolded₁, -, hsame⟩ := h.lists
    obtain ⟨lists₂', lists₃, h₂', h₃, -, hfolded₃, hsame'⟩ := h'.lists
    obtain rfl := h₂.shows.unique h₂'.shows
    exact ⟨lists₁, lists₃, h₁, h₃, hfolded₁, hfolded₃, hsame.trans hsame'⟩

theorem Shares.shows (h : Shares base S l₁ l₂) : ∃ lists₁ lists₂ : Lists,
    l₁.Shows lists₁ ∧ l₂.Shows lists₂ ∧ lists₁.restrict S = lists₂.restrict S := by
  obtain ⟨lists₁, lists₂, h₁, h₂, -, -, hsame⟩ := h.lists
  exact ⟨lists₁, lists₂, h₁.shows, h₂.shows, hsame⟩

theorem Shares.lets_iff (hsetting : l₁.SameSetting l₂) (hsteady : l₁.session.catalog.IsSteady)
    {lists₁ lists₂ : Lists} (hsame : lists₁.restrict S = lists₂.restrict S)
    (hname : Text.trim name ∈ S) :
    l₁.session.Lets l₁.world (lists₁.names .remove) o name ↔
      l₂.session.Lets l₂.world (lists₂.names .remove) o name := by
  have hgate := hsetting.gate
  rw [Session.Lets, Session.Lets, ← hsetting.session]
  rw [← hsetting.session] at hgate
  refine exists_congr fun n ↦ and_congr_right fun hvalid ↦ and_congr (by rw [hgate]) ?_
  rw [← (Session.validName_ok hvalid).1] at hname
  rw [← Lists.mem_names_restrict (l := lists₁) hname, hsame, Lists.mem_names_restrict hname,
    Session.knows_congr hsteady hsetting.network]

theorem Shares.stage (h : Shares base S l₁ l₂) (hname : Text.trim name ∈ S)
    (hok : (l₁.step (.stage o name)).1 = .ok ()) :
    (l₂.step (.stage o name)).1 = .ok () ∧
      Shares base S (l₁.step (.stage o name)).2 (l₂.step (.stage o name)).2 := by
  obtain ⟨hsetting, hsteady, lists₁, lists₂, h₁, h₂, hfolded₁, hfolded₂, hsame⟩ := h
  have hok₂ : (l₂.step (.stage o name)).1 = .ok () := by
    rw [h₁.stage_ok_iff, Shares.lets_iff hsetting hsteady hsame hname] at hok
    exact h₂.stage_ok_iff.2 hok
  have hset₁ := sameSetting_stage h₁.isAt hsteady hok
  have hset₂ := sameSetting_stage h₂.isAt (hsetting.session ▸ hsteady) hok₂
  refine ⟨hok₂, hset₁.trans (hsetting.trans hset₂.symm), hset₁.session ▸ hsteady, _, _,
    h₁.stage hok, h₂.stage hok₂, Log.net_net _, Log.net_net _, ?_⟩
  have hmoved (lists : Lists) := Lists.restrict_stage (l := lists) (c := ⟨o, Text.trim name⟩) hname
  rw [hmoved, hmoved, hsame]

theorem Shares.stage_other (h : Shares base S l₁ l₂) (hname : Text.trim name ∉ S)
    (hok : (l₁.step (.stage o name)).1 = .ok ()) :
    Shares base S (l₁.step (.stage o name)).2 l₂ := by
  obtain ⟨hsetting, hsteady, lists₁, lists₂, h₁, h₂, hfolded₁, hfolded₂, hsame⟩ := h
  have hset₁ := sameSetting_stage h₁.isAt hsteady hok
  refine ⟨hset₁.trans hsetting, hset₁.session ▸ hsteady, _, _, h₁.stage hok, h₂, Log.net_net _,
    hfolded₂, ?_⟩
  rw [Lists.restrict_stage_of_not_mem (c := ⟨o, Text.trim name⟩) hfolded₁ hname, hsame]

theorem Shares.clear (h : Shares base S l₁ l₂) :
    (l₂.step .clear).1 = .ok () ∧ Shares base S (l₁.step .clear).2 (l₂.step .clear).2 := by
  obtain ⟨hsetting, hsteady, lists₁, lists₂, h₁, h₂, -, -, hsame⟩ := h
  have hset₁ := sameSetting_clear h₁.isAt
  have hset₂ := sameSetting_clear h₂.isAt
  refine ⟨h₂.clear.1, hset₁.trans (hsetting.trans hset₂.symm), hset₁.session ▸ hsteady, _, _,
    h₁.clear.2, h₂.clear.2, rfl, rfl, ?_⟩
  rw [Lists.restrict_clear, Lists.restrict_clear, hsame]

end Shares

end OpenSession

/-- A call that counts for a set of names: it stages one of them or clears the log. -/
def Call.concerns (S : Set String) [DecidablePred (· ∈ S)] : Call → Bool
  | stage _ name => Text.trim name ∈ S
  | _ => true

namespace OpenSession

variable {l l₁ l₂ : OpenSession} {base : Path} {calls woven : List Call}

theorem Shares.run {S : Set String} [DecidablePred (· ∈ S)] (h : Shares base S l₁ l₂)
    (hcalls : ∀ c ∈ calls, c.isEdit) (hok : l₁.Succeeds calls) :
    l₂.Succeeds (calls.filter (·.concerns S)) ∧
      Shares base S (l₁.run calls) (l₂.run (calls.filter (·.concerns S))) := by
  induction calls generalizing l₁ l₂ with
  | nil => exact ⟨trivial, h⟩
  | cons c calls ih =>
    obtain ⟨hc, hedits⟩ := List.forall_mem_cons.1 hcalls
    obtain ⟨hfirst, hrest⟩ := hok
    cases c with
    | stage o name =>
      by_cases hname : Text.trim name ∈ S
      · obtain ⟨hfirst₂, hstep⟩ := h.stage hname hfirst
        obtain ⟨hrest₂, hlast⟩ := ih hstep hedits hrest
        rw [List.filter_cons_of_pos (by simp [Call.concerns, hname]), run_cons, run_cons]
        exact ⟨⟨hfirst₂, hrest₂⟩, hlast⟩
      · rw [List.filter_cons_of_neg (by simp [Call.concerns, hname]), run_cons]
        exact ih (h.stage_other hname hfirst) hedits hrest
    | clear =>
      obtain ⟨hfirst₂, hstep⟩ := h.clear
      obtain ⟨hrest₂, hlast⟩ := ih hstep hedits hrest
      rw [List.filter_cons_of_pos rfl, run_cons, run_cons]
      exact ⟨⟨hfirst₂, hrest₂⟩, hlast⟩
    | _ => cases hc

theorem succeeds_of_owners {ι : Type} [DecidableEq ι] (owner : String → ι)
    (hcalls : ∀ c ∈ calls, c.isEdit)
    (h : ∀ i, ∃ alone, Shares base {n | owner n = i} l alone ∧
      alone.Succeeds (calls.filter (·.concerns {n | owner n = i}))) : l.Succeeds calls := by
  induction calls generalizing l with
  | nil => trivial
  | cons c calls ih =>
    obtain ⟨hc, hedits⟩ := List.forall_mem_cons.1 hcalls
    cases c with
    | stage o name =>
      -- The owner of the name makes the same call alone, on lists that hold the same of its names.
      have hfirst : (l.step (.stage o name)).1 = .ok () := by
        obtain ⟨alone, hshares, hok⟩ := h (owner (Text.trim name))
        rw [List.filter_cons_of_pos (by simp [Call.concerns])] at hok
        exact (hshares.symm.stage rfl hok.1).1
      refine ⟨hfirst, ih hedits fun i ↦ ?_⟩
      obtain ⟨alone, hshares, hok⟩ := h i
      by_cases hname : owner (Text.trim name) = i
      · rw [List.filter_cons_of_pos (by simp [Call.concerns, hname])] at hok
        exact ⟨_, (hshares.stage hname hfirst).2, hok.2⟩
      · rw [List.filter_cons_of_neg (by simp [Call.concerns, hname])] at hok
        exact ⟨alone, hshares.stage_other hname hfirst, hok⟩
    | clear =>
      obtain ⟨alone, hshares, hok⟩ := h (owner "")
      refine ⟨hshares.symm.clear.1, ih hedits fun i ↦ ?_⟩
      obtain ⟨alone, hshares, hok⟩ := h i
      rw [List.filter_cons_of_pos rfl] at hok
      exact ⟨_, hshares.clear.2, hok.2⟩
    | _ => cases hc

theorem Has.shares_self {lists : Lists} (h : l.Has base lists) (hfolded : lists.log.net = lists.log)
    (hsteady : l.session.catalog.IsSteady) (S : Set String) [DecidablePred (· ∈ S)] :
    Shares base S l l :=
  ⟨.refl l, hsteady, lists, lists, h, h, hfolded, hfolded, rfl⟩

/-- Calls that are those of the same owners, each owner's in the same order. -/
def Interleaves {ι : Type} [DecidableEq ι] (owner : String → ι) (woven calls : List Call) : Prop :=
  ∀ i, woven.filter (·.concerns {n | owner n = i}) = calls.filter (·.concerns {n | owner n = i})

theorem Interleaves.isEdit {ι : Type} [DecidableEq ι] {owner : String → ι}
    (h : Interleaves owner woven calls) (hcalls : ∀ c ∈ calls, c.isEdit) :
    ∀ c ∈ woven, c.isEdit := by
  intro c hc
  cases c with
  | stage | clear => rfl
  | _ =>
    -- A call that is no edit concerns every owner, so it is one of the calls.
    have hmem := List.mem_filter.2 ⟨hc, (rfl : Call.concerns {n | owner n = owner ""} _ = true)⟩
    rw [h (owner "")] at hmem
    exact hcalls _ (List.mem_of_mem_filter hmem)

theorem Interleaves.shares {ι : Type} [DecidableEq ι] {owner : String → ι}
    (h : Interleaves owner woven calls) (hcalls : ∀ c ∈ calls, c.isEdit)
    (hself : ∀ i, Shares base {n | owner n = i} l l) (hok : l.Succeeds calls) :
    l.Succeeds woven ∧ ∀ i, Shares base {n | owner n = i} (l.run calls) (l.run woven) := by
  have halone (i : ι) := (hself i).run hcalls hok
  have hwoven := h.isEdit hcalls
  have hokwoven : l.Succeeds woven := by
    refine succeeds_of_owners owner hwoven fun i ↦ ⟨l, hself i, ?_⟩
    rw [h i]
    exact (halone i).1
  refine ⟨hokwoven, fun i ↦ ?_⟩
  have hother := ((hself i).run hwoven hokwoven).2
  rw [h i] at hother
  exact (halone i).2.trans hother.symm

/-- What calls that succeed do to the names of a set is what those among them that stage one of the
names or clear the log do alone. So it makes no difference how calls on different names are woven
into each other. -/
theorem run_independent (hat : l.session.IsAt base)
    (hreadable : Store.IsReadable ⟨base⟩ l.world.tree)
    (hfolded : ∃ log, Store.logIn ⟨base⟩ l.world.tree = .ok log ∧ log.net = log)
    (hsteady : l.session.catalog.IsSteady) (hcalls : ∀ c ∈ calls, c.isEdit)
    (hok : l.Succeeds calls) :
    (∀ (S : Set String) [DecidablePred (· ∈ S)],
      l.Succeeds (calls.filter (·.concerns S)) ∧
        ∃ now alone : Lists, (l.run calls).Shows now ∧
          (l.run (calls.filter (·.concerns S))).Shows alone ∧
          now.restrict S = alone.restrict S) ∧
      ∀ {ι : Type} [DecidableEq ι] (owner : String → ι) (woven : List Call),
        Interleaves owner woven calls → l.Succeeds woven ∧
          ∃ now other : Lists, (l.run calls).Shows now ∧ (l.run woven).Shows other ∧
            ∀ o n, (n ∈ now.names o ↔ n ∈ other.names o) ∧
              (⟨o, n⟩ ∈ now.log ↔ ⟨o, n⟩ ∈ other.log) := by
  obtain ⟨lists, hholds⟩ := hreadable.exists_holds
  obtain ⟨log, hlog, hnet⟩ := hfolded
  obtain rfl := Except.ok.inj (hholds.log.symm.trans hlog)
  have hstart : l.Has base lists := ⟨hat, hreadable, hholds⟩
  constructor
  · intro S _
    obtain ⟨halone, hshares⟩ := (hstart.shares_self hnet hsteady S).run hcalls hok
    exact ⟨halone, hshares.shows⟩
  · intro ι _ owner woven hwoven
    obtain ⟨hokwoven, hshares⟩ :=
      hwoven.shares hcalls (fun i ↦ hstart.shares_self hnet hsteady _) hok
    obtain ⟨now, other, hnow, hother, -⟩ := (hshares (owner "")).shows
    refine ⟨hokwoven, now, other, hnow, hother, fun o n ↦ ?_⟩
    obtain ⟨now', other', hnow', hother', hsame⟩ := (hshares (owner n)).shows
    obtain rfl := hnow.unique hnow'
    obtain rfl := hother.unique hother'
    have hn : n ∈ {m | owner m = owner n} := rfl
    constructor
    · rw [← Lists.mem_names_restrict (l := now) hn, hsame, Lists.mem_names_restrict hn]
    · rw [← Lists.mem_log_restrict (l := now) (c := ⟨o, n⟩) hn, hsame, Lists.mem_log_restrict hn]

theorem run_independent_tidy :
    let calls : List Call := [.stage .remove "vim", .stage .add " nano ", .clear,
      .stage .add "nano", .stage .add "vim"]
    let woven : List Call := [.stage .add " nano ", .stage .remove "vim", .clear,
      .stage .add "vim", .stage .add "nano"]
    (∃ now alone : Lists, (tidy.run calls).Shows now ∧
      (tidy.run [.stage .remove "vim", .clear, .stage .add "vim"]).Shows alone ∧
      now.restrict {n | n ≠ "nano"} = alone.restrict {n | n ≠ "nano"}) ∧
    tidy.Succeeds woven ∧ ∃ now other : Lists, (tidy.run calls).Shows now ∧
      (tidy.run woven).Shows other ∧ ∀ o n, (n ∈ now.names o ↔ n ∈ other.names o) ∧
        (⟨o, n⟩ ∈ now.log ↔ ⟨o, n⟩ ∈ other.log) := by
  intro calls woven
  have hplain : ∀ c ∈ calls, c.isPlain := by decide
  have hedits : ∀ c ∈ calls, c.isEdit := by decide
  have hsteady : tidy.session.catalog.IsSteady := Catalog.isSteady_fixed _
  obtain ⟨halone, hwoven⟩ := run_independent has_tidy.isAt has_tidy.readable
    ⟨_, has_tidy.holds.log, rfl⟩ hsteady hedits (succeeds_tidy hplain)
  refine ⟨(halone {n | n ≠ "nano"}).2, hwoven (· == "vim") woven fun b ↦ ?_⟩
  cases b <;> rfl

end OpenSession

end PackageStaging
