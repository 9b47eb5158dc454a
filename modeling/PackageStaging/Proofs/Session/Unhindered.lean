import PackageStaging.Proofs.Session.Independence
import PackageStaging.Proofs.Session.Requests

namespace PackageStaging

def Call.verdict : Call → Except StageError Unit
  | stage _ name => (Session.validName name).map fun _ ↦ ()
  | _ => .ok ()

def Lists.edit (l : Lists) : Call → Lists
  | .stage o name =>
    match Session.validName name with
    | .ok n => l.stage ⟨o, n⟩
    | .error _ => l
  | .clear => l.clear
  | _ => l

namespace Session

variable {s : Session Simulation} {w : World} {o : Operation} {name : String}

theorem stage_of_invalid {e : StageError} (h : validName name = .error e) :
    w.perform (s.stage o name) = (.error e, w) := by
  cases o <;> exact (s.perform_guarded w name _).trans (by rw [h])

theorem knows_of_lookups (hsteady : s.catalog.IsSteady)
    (h : ∀ word, (w.perform (s.catalog.lookup word)).1 = .ok ()) (n : String) : s.Knows w n := by
  rw [Knows, lookUp]
  induction Text.words n generalizing w with
  | nil => rfl
  | cons word words ih =>
    have hkept := hsteady.keeps word w
    have hfirst := h word
    rcases hlookup : w.perform (s.catalog.lookup word) with ⟨r, v⟩
    rw [hlookup] at hkept hfirst
    obtain rfl : r = .ok () := hfirst
    have hforM : (word :: words).forM s.catalog.lookup =
        s.catalog.lookup word >>= fun _ ↦ words.forM s.catalog.lookup := rfl
    rw [hforM, World.perform_bind_ok hlookup]
    exact ih fun other ↦ (hsteady.blind other hkept).1.trans (h other)

end Session

namespace OpenSession

variable {l l' : OpenSession} {base : Path} {lists lists' : Lists} {c : Call} {calls : List Call}

/-- A session behind an open gate whose catalog has every name. -/
structure IsFree (l : OpenSession) (base : Path) (lists : Lists) : Prop extends
    l.Has base lists where
  steady : l.session.catalog.IsSteady
  isOpen : l.session.gate.isOpenIn l.world.tree
  knows (n : String) : l.session.Knows l.world n

theorem IsFree.of_sameSetting (h : l.IsFree base lists) (hhas : l'.Has base lists')
    (hsame : l'.SameSetting l) : l'.IsFree base lists' where
  toHas := hhas
  steady := hsame.session ▸ h.steady
  isOpen := hsame.gate.trans h.isOpen
  knows n := by
    rw [hsame.session]
    exact (Session.knows_congr h.steady hsame.network n).2 (h.knows n)

theorem IsFree.step (h : l.IsFree base lists) (hc : c.isEdit) :
    (l.step c).1 = c.verdict ∧ (l.step c).2.IsFree base (lists.edit c) := by
  cases c with
  | stage o name =>
    cases hvalid : Session.validName name with
    | error e =>
      have hstage := Session.stage_of_invalid (s := l.session) (w := l.world) (o := o) hvalid
      simp only [step_stage, hstage, Call.verdict, Lists.edit, hvalid]
      exact ⟨rfl, h⟩
    | ok n =>
      have hok : (l.step (.stage o name)).1 = .ok () :=
        h.stage_ok_iff.2 ⟨n, hvalid, h.isOpen, .inr (h.knows n)⟩
      have hnext := h.of_sameSetting (h.stage hok) (sameSetting_stage h.isAt h.steady hok)
      obtain ⟨rfl, -⟩ := Session.validName_ok hvalid
      simp only [Call.verdict, Lists.edit, hvalid]
      exact ⟨hok, hnext⟩
  | clear => exact ⟨h.clear.1, h.of_sameSetting h.clear.2 (sameSetting_clear h.isAt)⟩
  | _ => cases hc

/-- What a session that nothing hinders replies to edits, and what its lists come to. -/
theorem IsFree.converse (h : l.IsFree base lists) (hcalls : ∀ c ∈ calls, c.isEdit) :
    (l.converse (calls.map .call)).1 = calls.map (fun c ↦ c.verdict.map fun _ ↦ .done) ∧
      (l.converse (calls.map .call)).2.IsFree base (calls.foldl .edit lists) := by
  induction calls generalizing l lists with
  | nil => exact ⟨rfl, h⟩
  | cons c calls ih =>
    obtain ⟨hc, hcalls⟩ := List.forall_mem_cons.1 hcalls
    obtain ⟨hverdict, hfree⟩ := h.step hc
    obtain ⟨hreplies, hlast⟩ := ih hfree hcalls
    refine ⟨List.cons_eq_cons.2 ⟨?_, hreplies⟩, hlast⟩
    exact congrArg (Except.map fun _ ↦ Reply.done) hverdict

theorem isOpenIn_ofConfig {config : Config} {catalog : Catalog Simulation} {t u : FileTree}
    (h : u.stat? (config.base.child Config.agreementName) =
      t.stat? (config.base.child Config.agreementName)) :
    (Session.ofConfig config catalog).gate.isOpenIn u =
      (Session.ofConfig config catalog).gate.isOpenIn t := isOpenIn_congr h

theorem isFree_start {config : Config} {catalog : Catalog Simulation} {w : World}
    (hsteady : catalog.IsSteady) (hlookups : ∀ word, (w.perform (catalog.lookup word)).1 = .ok ())
    (hopen : (Session.ofConfig config catalog).gate.isOpenIn w.tree)
    (hr : Store.IsReadable ⟨config.base⟩ w.tree) (hl : Store.Holds ⟨config.base⟩ w.tree lists) :
    ∃ v, w.perform (Session.start config catalog) = (.ok (.ofConfig config catalog), v) ∧
      IsFree ⟨.ofConfig config catalog, v⟩ config.base lists := by
  obtain ⟨v, hstart, houtside, hlike⟩ := Session.start_of_isReadable catalog hr
  have hnetwork : v.answer? = w.answer? := congrArg (·.answer?) houtside
  refine ⟨v, hstart, ⟨⟨rfl, rfl, hsteady.quiet⟩, hlike.readable, ?_, ?_⟩, hsteady, ?_, fun n ↦ ?_⟩
  · exact fun o ↦ (hlike.items _).trans (hl.names o)
  · exact (congrArg (Except.map _) (hlike.items .unstaged)).trans hl.log
  · exact (isOpenIn_ofConfig hlike.agreement).trans hopen
  · exact Session.knows_of_lookups hsteady
      (fun word ↦ (hsteady.blind word hnetwork).1.trans (hlookups word)) n

end OpenSession

end PackageStaging
