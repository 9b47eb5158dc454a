import PackageStaging.Proofs.Session.Exact
import PackageStaging.Proofs.Session.Unhindered
import PackageStaging.Proofs.Store.Mirrored

namespace PackageStaging

namespace Call

def mirror : Call → Call
  | stage o name => .stage o.opposite name
  | c => c

theorem verdict_mirror (c : Call) : c.mirror.verdict = c.verdict := by
  cases c <;> rfl

theorem isEdit_mirror (c : Call) : c.mirror.isEdit = c.isEdit := by
  cases c <;> rfl

end Call

theorem Lists.mirror_edit (l : Lists) (c : Call) : (l.edit c).mirror = l.mirror.edit c.mirror := by
  cases c with
  | stage o name =>
    cases hvalid : Session.validName name with
    | ok n =>
      simp only [edit, Call.mirror, hvalid]
      exact l.mirror_stage ⟨o, n⟩
    | error e => simp only [edit, Call.mirror, hvalid]
  | clear => exact l.mirror_clear
  | _ => rfl

theorem Lists.mirror_foldl_edit (l : Lists) (calls : List Call) :
    (calls.foldl edit l).mirror = (calls.map Call.mirror).foldl edit l.mirror := by
  induction calls generalizing l with
  | nil => rfl
  | cons c calls ih => exact (ih (l.edit c)).trans (by rw [l.mirror_edit c]; rfl)

namespace OpenSession

variable {calls : List Call}

/-- Edits made at a base directory and the mirrored edits made at a mirror image of it succeed or
fail alike, one by one, and lead to lists that are mirror images. -/
theorem converse_mirrored {config : Config} {catalog : Catalog Simulation} {w₁ w₂ : World}
    (hsteady : catalog.IsSteady) (hlookups : ∀ word, (w₁.perform (catalog.lookup word)).1 = .ok ())
    (hnetwork : w₂.answer? = w₁.answer?)
    (hopen : (Session.ofConfig config catalog).gate.isOpenIn w₁.tree)
    (hr : Store.IsReadable ⟨config.base⟩ w₁.tree)
    (hmirrors : Store.Mirrors ⟨config.base⟩ w₁.tree w₂.tree) (hcalls : ∀ c ∈ calls, c.isEdit) :
    ∃ s v₁ v₂ lists, w₁.perform (Session.start config catalog) = (.ok s, v₁) ∧
      w₂.perform (Session.start config catalog) = (.ok s, v₂) ∧
      (converse ⟨s, v₁⟩ (calls.map .call)).1 =
        (converse ⟨s, v₂⟩ ((calls.map Call.mirror).map .call)).1 ∧
      Store.Holds ⟨config.base⟩ (converse ⟨s, v₁⟩ (calls.map .call)).2.world.tree lists ∧
      Store.Holds ⟨config.base⟩
        (converse ⟨s, v₂⟩ ((calls.map Call.mirror).map .call)).2.world.tree lists.mirror := by
  obtain ⟨l, hl⟩ := hr.exists_holds
  obtain ⟨v₁, hstart₁, hfree₁⟩ := isFree_start hsteady hlookups hopen hr hl
  have hlookups₂ (word : String) : (w₂.perform (catalog.lookup word)).1 = .ok () :=
    (hsteady.blind word hnetwork).1.trans (hlookups word)
  have hopen₂ : (Session.ofConfig config catalog).gate.isOpenIn w₂.tree :=
    (isOpenIn_ofConfig hmirrors.agreement).trans hopen
  obtain ⟨v₂, hstart₂, hfree₂⟩ :=
    isFree_start hsteady hlookups₂ hopen₂ (hmirrors.isReadable hr) (hmirrors.holds hl)
  have hmirrored : ∀ c ∈ calls.map Call.mirror, c.isEdit :=
    List.forall_mem_map.2 fun c hc ↦ c.isEdit_mirror.trans (hcalls c hc)
  obtain ⟨hreplies₁, hlast₁⟩ := hfree₁.converse hcalls
  obtain ⟨hreplies₂, hlast₂⟩ := hfree₂.converse hmirrored
  refine ⟨_, v₁, v₂, calls.foldl .edit l, hstart₁, hstart₂, ?_, hlast₁.holds, ?_⟩
  · rw [hreplies₁, hreplies₂, List.map_map]
    simp only [Function.comp_def, Call.verdict_mirror]
  · rw [Lists.mirror_foldl_edit]
    exact hlast₂.holds

def contestedMirror : StoredList → Option String
  | .add => Session.contested .remove
  | .remove => Session.contested .add
  | .unstaged => some "- nano\n+ nano\n+ git\n"

theorem mirrors_contested : Store.Mirrors ⟨Config.bare.base⟩ (World.spelled Session.contested).tree
    (World.spelled contestedMirror).tree where
  enters := (isReadable_spelled contestedMirror).enters
  names o := by
    rw [World.read_spelled, World.read_spelled]
    cases o <;> rfl
  log := by
    refine ⟨_, Session.holds_contested.log, ?_⟩
    rw [Store.logIn, itemsIn_spelled]
    exact congrArg Except.ok (by decide)
  agreement := rfl

theorem converse_mirrored_contested :
    let calls : List Call := [.stage .add "vim", .stage .add " ", .clear, .stage .remove "git"]
    ∃ s v₁ v₂ lists,
      (World.spelled Session.contested).perform (Session.start .bare .full) = (.ok s, v₁) ∧
      (World.spelled contestedMirror).perform (Session.start .bare .full) = (.ok s, v₂) ∧
      (converse ⟨s, v₁⟩ (calls.map .call)).1 =
        (converse ⟨s, v₂⟩ ((calls.map Call.mirror).map .call)).1 ∧
      Store.Holds ⟨Config.bare.base⟩ (converse ⟨s, v₁⟩ (calls.map .call)).2.world.tree lists ∧
      Store.Holds ⟨Config.bare.base⟩
        (converse ⟨s, v₂⟩ ((calls.map Call.mirror).map .call)).2.world.tree lists.mirror := by
  intro calls
  have hcalls : ∀ c ∈ calls, c.isEdit := by simp [calls, Call.isEdit]
  exact converse_mirrored (Catalog.isSteady_fixed _) (Catalog.isFull_full _) rfl rfl
    (isReadable_spelled _) mirrors_contested hcalls

end OpenSession

end PackageStaging
