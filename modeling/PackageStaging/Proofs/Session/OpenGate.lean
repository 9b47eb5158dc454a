import PackageStaging.Proofs.Session.Closed

namespace PackageStaging

def Config.withStatus (c : Config) (status : GateStatus) : Config := { c with status }

def Session.withStatus (s : Session Simulation) (status : GateStatus) : Session Simulation :=
  { s with gate := { s.gate with status } }

namespace Session

variable {s : Session Simulation} {w : World} {status : GateStatus}

theorem stage_withStatus (hopen : s.gate.isOpenIn w.tree)
    (hopen' : (s.withStatus status).gate.isOpenIn w.tree) (o : Operation) (name : String) :
    w.perform ((s.withStatus status).stage o name) = w.perform (s.stage o name) := by
  have hguard (rest : String → ExceptT StageError Simulation Unit) :
      w.perform (MonadExcept.ofExcept (validName name) >>= fun n ↦
          (s.withStatus status).gate.check >>= fun _ ↦ rest n) =
        w.perform (MonadExcept.ofExcept (validName name) >>= fun n ↦
          s.gate.check >>= fun _ ↦ rest n) := by
    simp only [perform_guarded, hopen, hopen']
  cases o with
  | add => exact hguard _
  | remove => exact hguard _

theorem summary_withStatus (hopen : s.gate.isOpenIn w.tree)
    (hopen' : (s.withStatus status).gate.isOpenIn w.tree) :
    w.perform (s.withStatus status).summary = w.perform s.summary := by
  rw [summary, summary, World.perform_bind_ok (Gate.perform_isAccepted _ w),
    World.perform_bind_ok (Gate.perform_isAccepted _ w), hopen, hopen']
  rfl

theorem writeSummary_withStatus (hopen : s.gate.isOpenIn w.tree)
    (hopen' : (s.withStatus status).gate.isOpenIn w.tree) (path : Path) :
    w.perform ((s.withStatus status).writeSummary path) = w.perform (s.writeSummary path) := by
  rw [writeSummary, writeSummary, World.perform_bind, World.perform_bind,
    summary_withStatus hopen hopen']

theorem answer_withStatus (hopen : s.gate.isOpenIn w.tree)
    (hopen' : (s.withStatus status).gate.isOpenIn w.tree) (q : Question) :
    w.perform (q.answer (s.withStatus status)) = w.perform (q.answer s) := by
  cases q with
  | packages | packagesText | unstaged | unstagedNames => rfl
  | command t => cases t <;> rfl
  | summary =>
    rw [Question.answer, Question.answer, World.perform_bind, World.perform_bind,
      summary_withStatus hopen hopen']
  | check =>
    rw [Question.answer, Question.answer, World.perform_bind, World.perform_bind,
      Gate.perform_check, Gate.perform_check, hopen, hopen']
  | accepted =>
    rw [Question.answer, Question.answer, World.perform_bind_ok (Gate.perform_isAccepted _ w),
      World.perform_bind_ok (Gate.perform_isAccepted _ w), hopen, hopen']

theorem start_withStatus (c : Config) (catalog : Catalog Simulation) (w : World)
    (status : GateStatus) : w.perform (start (c.withStatus status) catalog) =
      ((w.perform (start c catalog)).1.map (·.withStatus status),
        (w.perform (start c catalog)).2) := by
  have hbase : (c.withStatus status).base = c.base := rfl
  rw [start, start, World.perform_bind, World.perform_bind, hbase]
  rcases w.perform (Store.prepare c.base) with ⟨r, v⟩
  cases r <;> rfl

end Session

def World.agreed : World :=
  { World.bare with tree := World.bare.tree.put ["user-agreement", "state"] (.file .empty 0o644) }

def Call.withStatus (status : GateStatus) : Call → Call
  | reopen c catalog => .reopen (c.withStatus status) catalog
  | c => c

def Errand.withStatus (status : GateStatus) : Errand → Errand
  | .request (.call c) => .request (.call (c.withStatus status))
  | e => e

namespace OpenSession

variable {l : OpenSession} {base : Path} {c : Call} {e : Errand} {errands : List Errand}

def withStatus (l : OpenSession) (status : GateStatus) : OpenSession :=
  { l with session := l.session.withStatus status }

theorem HasAgreed.withStatus (h : l.HasAgreed base) (status : GateStatus) :
    (l.withStatus status).HasAgreed base :=
  ⟨⟨h.isAt.store, h.isAt.agreementFile, h.isAt.quiet⟩, h.marker⟩

theorem HasAgreed.step_withStatus (h : l.HasAgreed base) (hc : c ≠ .accept)
    (status : GateStatus) : (l.withStatus status).step (c.withStatus status) =
      ((l.step c).1, (l.step c).2.withStatus status) := by
  have hopen := h.isOpenIn
  have hopen' := (h.withStatus status).isOpenIn
  cases c with
  | accept => exact absurd rfl hc
  | stage o name =>
    have hstage := Session.stage_withStatus hopen hopen' o name
    simp only [Call.withStatus, step_stage, OpenSession.withStatus, hstage]
  | clear =>
    simp only [Call.withStatus, step_clear]
    rfl
  | ask q =>
    have hanswer := Session.answer_withStatus hopen hopen' q.question
    have hact : l.world.perform (q.act (l.session.withStatus status)) =
        l.world.perform (q.act l.session) := by
      rw [Query.act_eq, Query.act_eq, World.perform_bind, World.perform_bind, hanswer]
    simp only [Call.withStatus, step_ask, OpenSession.withStatus, hact]
  | reopen config catalog =>
    have hstart := Session.start_withStatus config catalog l.world status
    simp only [Call.withStatus, step, Call.act, OpenSession.withStatus, hstart]
    rcases l.world.perform (Session.start config catalog) with ⟨r, v⟩
    cases r <;> rfl

theorem HasAgreed.attend_withStatus (h : l.HasAgreed base) (he : e ≠ .accept)
    (status : GateStatus) : (l.withStatus status).attend (e.withStatus status) =
      ((l.attend e).1, (l.attend e).2.withStatus status) := by
  have hopen := h.isOpenIn
  have hopen' := (h.withStatus status).isOpenIn
  cases e with
  | writeSummary path =>
    have hwrite := Session.writeSummary_withStatus hopen hopen' path
    simp only [Errand.withStatus, OpenSession.attend, OpenSession.withStatus, hwrite]
  | request r =>
    cases r with
    | question q =>
      have hanswer := Session.answer_withStatus hopen hopen' q
      simp only [Errand.withStatus, OpenSession.attend, respond, OpenSession.withStatus, hanswer]
    | call c =>
      have hc : c ≠ .accept := by
        rintro rfl
        exact he rfl
      simp only [Errand.withStatus, OpenSession.attend, respond, h.step_withStatus hc]

theorem HasAgreed.serve_withStatus (h : l.HasAgreed base)
    (herrands : ∀ e ∈ errands, e.StaysAt base ∧ e ≠ .accept) (status : GateStatus) :
    (l.withStatus status).serve (errands.map (·.withStatus status)) =
      ((l.serve errands).1, (l.serve errands).2.withStatus status) := by
  induction errands generalizing l with
  | nil => rfl
  | cons e errands ih =>
    obtain ⟨⟨hstays, he⟩, hrest⟩ := List.forall_mem_cons.1 herrands
    simp only [List.map_cons, serve, h.attend_withStatus he, ih (h.attend hstays) hrest]

/-- Where the marker of the agreement stands, sessions that differ only in their status cannot be
told apart by anything else: they give the same replies and lead to the same world, with the same
files and the same words looked up, which a catalog may note there. -/
theorem serve_of_agreed {w : World} {config : Config} {catalog : Catalog Simulation}
    (hmarker : (w.tree.stat? config.agreementFile).isSome) (hquiet : catalog.IsQuiet)
    (herrands : ∀ e ∈ errands, e.StaysAt config.base ∧ e ≠ .accept) (a b : GateStatus) :
    let first := serve ⟨.ofConfig (config.withStatus a) catalog, w⟩ (errands.map (·.withStatus a))
    let second := serve ⟨.ofConfig (config.withStatus b) catalog, w⟩ (errands.map (·.withStatus b))
    first.1 = second.1 ∧ first.2.world = second.2.world ∧
      first.2.session.gate.status = a ∧ second.2.session.gate.status = b := by
  intro first second
  have hagreed : HasAgreed ⟨.ofConfig config catalog, w⟩ config.base :=
    ⟨⟨rfl, rfl, hquiet⟩, hmarker⟩
  have hfirst : first = _ := hagreed.serve_withStatus herrands a
  have hsecond : second = _ := hagreed.serve_withStatus herrands b
  rw [hfirst, hsecond]
  exact ⟨rfl, rfl, rfl, rfl⟩

theorem serve_of_agreed_bare :
    let errands : List Errand := [.reopen .bare .full, .stage .add "vim",
      .request (.question .check), .request (.question .summary), .writeSummary ⟨"/summary"⟩,
      .clear]
    let disabled := serve ⟨.ofConfig (Config.bare.withStatus .disabled) .full, .agreed⟩
      (errands.map (·.withStatus .disabled))
    let requiring := serve ⟨.ofConfig (Config.bare.withStatus .requiresAgreement) .full, .agreed⟩
      (errands.map (·.withStatus .requiresAgreement))
    disabled.1 = requiring.1 ∧ disabled.2.world = requiring.2.world := by
  intro errands disabled requiring
  have hmarker : (World.agreed.tree.stat? Config.bare.agreementFile).isSome := rfl
  have hquiet : Catalog.full.IsQuiet := Catalog.isQuiet_fixed _
  have herrands : ∀ e ∈ errands, e.StaysAt Config.bare.base ∧ e ≠ .accept := by
    simp [errands, Errand.StaysAt, Call.StaysAt, Errand.reopen, Errand.stage, Errand.clear,
      Errand.accept, hquiet]
  obtain ⟨hreplies, hworlds, -⟩ :=
    serve_of_agreed hmarker hquiet herrands .disabled .requiresAgreement
  exact ⟨hreplies, hworlds⟩

end OpenSession

end PackageStaging
