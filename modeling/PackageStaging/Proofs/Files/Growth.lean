import PackageStaging.Proofs.Files.Directory
import PackageStaging.Proofs.Text.Item

namespace PackageStaging

def namedSteps (names : List String) : List String := names.filter fun c ↦ c != "" && c != "."

theorem namedSteps_cons (name : String) (names : List String) :
    namedSteps (name :: names) = namedSteps [name] ++ namedSteps names := by
  rw [namedSteps, namedSteps, namedSteps, ← List.filter_append]
  rfl

/-- How deep the entry of a path can be, seen from a working directory. -/
def Path.depth (working : Place) (p : Path) : ℕ :=
  (if p.isRooted then [] else working).length + (namedSteps p.components).length

namespace FileTree

variable {t u v : FileTree} {p : Path} {place d : Place} {names : List String} {k : ℕ}

theorem step_cases {name : String} {next : Place} (h : t.step place name = .ok next) :
    namedSteps [name] = [] ∧ next = place ∨
      name = ".." ∧ next = place.tail ∨ namedSteps [name] = [name] ∧ next = name :: place := by
  obtain ⟨mode, hm⟩ := isDirectory_of_step h
  simp only [step, hm] at h
  by_cases hstay : name = "" ∨ name = "."
  · rw [if_pos hstay] at h
    cases h
    exact .inl ⟨by rcases hstay with rfl | rfl <;> rfl, rfl⟩
  · rw [if_neg hstay] at h
    by_cases hup : name = ".."
    · rw [if_pos hup] at h
      cases h
      exact .inr (.inl ⟨hup, rfl⟩)
    · rw [if_neg hup] at h
      split at h
      · cases h
      · cases h
        exact .inr (.inr ⟨by simpa [namedSteps] using hstay, rfl⟩)

theorem length_of_walk (h : t.walk place names = .ok d) :
    d.length ≤ place.length + (namedSteps names).length := by
  induction names generalizing place with
  | nil => cases h; simp
  | cons name names ih =>
    simp only [walk] at h
    cases hs : t.step place name with
    | error e => rw [hs] at h; cases h
    | ok next =>
      rw [hs] at h
      have hrest := ih h
      rw [namedSteps_cons, List.length_append]
      rcases step_cases hs with ⟨hname, rfl⟩ | ⟨rfl, rfl⟩ | ⟨hname, rfl⟩
      · omega
      · have htail : place.tail.length ≤ place.length := by simp
        omega
      · rw [hname]
        simp only [List.length_cons, List.length_nil] at hrest ⊢
        omega

theorem eq_of_walk (hup : ".." ∉ names) (h : t.walk place names = .ok d) :
    d = (namedSteps names).reverse ++ place := by
  induction names generalizing place with
  | nil => cases h; rfl
  | cons name names ih =>
    simp only [List.mem_cons, not_or] at hup
    simp only [walk] at h
    cases hs : t.step place name with
    | error e => rw [hs] at h; cases h
    | ok next =>
      rw [hs] at h
      have hrest := ih hup.2 h
      rw [namedSteps_cons]
      rcases step_cases hs with ⟨hname, rfl⟩ | ⟨rfl, -⟩ | ⟨hname, rfl⟩
      · rw [hname, hrest, List.nil_append]
      · exact absurd rfl hup.1
      · rw [hname, hrest]
        simp

/-- More directories stand in a tree, none of them below a depth. -/
structure Grows (k : ℕ) (t u : FileTree) : Prop where
  working : u.working = t.working
  node? (place : Place) : u.node? place = t.node? place ∨
    t.node? place = none ∧ u.IsDirectory place ∧ place.length ≤ k

theorem Grows.refl (k : ℕ) (t : FileTree) : Grows k t t := ⟨rfl, fun _ ↦ .inl rfl⟩

theorem Grows.isDirectory (h : Grows k t u) (hd : t.IsDirectory d) : u.IsDirectory d := by
  rcases h.node? d with he | ⟨-, hu, -⟩
  · rwa [IsDirectory, he]
  · exact hu

theorem Grows.trans (h : Grows k t u) (h' : Grows k u v) : Grows k t v where
  working := h'.working.trans h.working
  node? place := by
    rcases h'.node? place with he' | ⟨hnone, hv, hk⟩
    · rcases h.node? place with he | ⟨hnone, hu, hk⟩
      · exact .inl (he'.trans he)
      · exact .inr ⟨hnone, by rwa [IsDirectory, he'], hk⟩
    · rcases h.node? place with he | ⟨-, ⟨mode, hm⟩, -⟩
      · exact .inr ⟨he ▸ hnone, hv, hk⟩
      · rw [hm] at hnone
        cases hnone

theorem namedSteps_dropNothing (names : List String) :
    namedSteps (names.reverse.dropWhile (· == "")).reverse = namedSteps names := by
  induction names using List.reverseRecOn with
  | nil => rfl
  | append_singleton names name ih =>
    by_cases hn : name = ""
    · subst hn
      rw [List.reverse_append, List.reverse_singleton, List.singleton_append,
        List.dropWhile_cons_of_pos (by simp), ih]
      simp [namedSteps]
    · simp [hn]

theorem grows_makeDirectory (h : t.makeDirectory p = .ok u) (hk : p.depth t.working ≤ k) :
    Grows k t u := by
  obtain ⟨place, -, hwalk, hnone, rfl⟩ := put_of_makeDirectory h
  have hlength := length_of_walk hwalk
  rw [entryComponents, namedSteps_dropNothing] at hlength
  refine ⟨rfl, ?_⟩
  intro other
  by_cases ho : other = place
  · subst ho
    exact .inr ⟨hnone, ⟨_, node?_put_self _ _ _⟩, Nat.le_trans hlength hk⟩
  · exact .inl (node?_put_of_ne _ _ ho)

end FileTree

namespace Path

theorem not_mem_components (p : Path) : ∀ c ∈ p.components, '/' ∉ c.toList := by
  intro c hc
  obtain ⟨piece, hpiece, rfl⟩ := List.mem_map.1 hc
  rw [String.toList_ofList]
  intro hm
  simpa using Text.not_of_mem_splitOnP hpiece '/' hm

theorem steps_cases (p : Path) :
    (∃ rest, p.components = "." :: rest ∧ p.steps = "." :: namedSteps rest) ∨
      p.steps = namedSteps p.components := by
  unfold steps
  split
  · rename_i rest hrest
    exact .inl ⟨rest, hrest, rfl⟩
  · exact .inr rfl

theorem mem_steps {p : Path} {c : String} (hc : c ∈ p.steps) : c ∈ p.components ∧ c ≠ "" := by
  have hnamed {names : List String} (h : c ∈ namedSteps names) : c ∈ names ∧ c ≠ "" := by
    simp only [namedSteps, List.mem_filter, Bool.and_eq_true, bne_iff_ne] at h
    exact ⟨h.1, h.2.1⟩
  rcases p.steps_cases with ⟨rest, hcomponents, hsteps⟩ | hsteps
  · rw [hsteps] at hc
    rw [hcomponents]
    rcases List.mem_cons.1 hc with rfl | hc
    · exact ⟨List.mem_cons_self, by decide⟩
    · exact ⟨List.mem_cons_of_mem _ (hnamed hc).1, (hnamed hc).2⟩
  · rw [hsteps] at hc
    exact hnamed hc

theorem namedSteps_steps (p : Path) : namedSteps p.steps = namedSteps p.components := by
  have hagain (names : List String) : namedSteps (namedSteps names) = namedSteps names := by
    simp [namedSteps, List.filter_filter]
  rcases p.steps_cases with ⟨rest, hcomponents, hsteps⟩ | hsteps
  · rw [hsteps, hcomponents, namedSteps_cons, hagain, ← namedSteps_cons]
  · rw [hsteps, hagain]

theorem toList_ofSteps (isRooted : Bool) (steps : List String) :
    (ofSteps isRooted steps).text.toList =
      (if isRooted then ['/'] else []) ++ ['/'].intercalate (steps.map String.toList) := by
  cases isRooted <;> simp [ofSteps, String.toList_intercalate]

theorem components_ofSteps {isRooted : Bool} {steps : List String} (hne : steps ≠ [])
    (hsteps : ∀ c ∈ steps, '/' ∉ c.toList) :
    (ofSteps isRooted steps).components = (if isRooted then [""] else []) ++ steps := by
  have hsplit : (['/'].intercalate (steps.map String.toList)).splitOnP (· == '/') =
      steps.map String.toList := by
    rw [← List.splitOn_eq_splitOnP]
    exact List.splitOn_intercalate '/' (by simpa using hsteps) (by simpa using hne)
  rw [components, toList_ofSteps]
  cases isRooted with
  | false => simp [hsplit, Function.comp_def]
  | true => simp [List.splitOnP_cons_eq_if_modifyHead, hsplit, Function.comp_def]

theorem isRooted_ofSteps {isRooted : Bool} {step : String} {steps : List String}
    (hempty : step ≠ "") (hstep : '/' ∉ step.toList) :
    (ofSteps isRooted (step :: steps)).isRooted = isRooted := by
  rw [Path.isRooted, toList_ofSteps]
  cases isRooted with
  | true => simp
  | false =>
    obtain ⟨c, cs, hc⟩ := List.exists_cons_of_ne_nil (l := step.toList) (by simpa using hempty)
    have hne : c ≠ '/' := by
      rintro rfl
      simp [hc] at hstep
    cases steps <;> simp [hc, hne]

theorem depth_ofSteps_le {p : Path} {working : Place} {steps : List String} (hne : steps ≠ [])
    (hpre : steps <+: p.steps) : (ofSteps p.isRooted steps).depth working ≤ p.depth working := by
  have hmem (c : String) (hc : c ∈ steps) : '/' ∉ c.toList ∧ c ≠ "" := by
    obtain ⟨hc, hempty⟩ := mem_steps (hpre.subset hc)
    exact ⟨p.not_mem_components c hc, hempty⟩
  have hrooted : (ofSteps p.isRooted steps).isRooted = p.isRooted := by
    obtain ⟨first, rest, rfl⟩ := List.exists_cons_of_ne_nil hne
    obtain ⟨hslash, hempty⟩ := hmem first List.mem_cons_self
    exact isRooted_ofSteps hempty hslash
  have hnamed : namedSteps (ofSteps p.isRooted steps).components = namedSteps steps := by
    rw [components_ofSteps hne fun c hc ↦ (hmem c hc).1]
    cases p.isRooted with
    | false => rfl
    | true => exact namedSteps_cons "" steps
  have hlength : (namedSteps steps).length ≤ (namedSteps p.components).length := by
    rw [← p.namedSteps_steps]
    exact (hpre.filter _).length_le
  rw [depth, depth, hrooted, hnamed]
  omega

theorem depth_le_of_mem_around {p q : Path} {working : Place} {xs : List String}
    (hxs : xs.reverse <+: p.steps) (hq : q ∈ around p.isRooted xs) :
    q.depth working ≤ p.depth working := by
  induction xs with
  | nil => simp [around] at hq
  | cons last outer ih =>
    rw [List.reverse_cons] at hxs
    have hinit := (List.prefix_append _ _).trans hxs
    cases outer with
    | nil => simp [around] at hq
    | cons next outer =>
      rcases List.mem_cons.1 hq with rfl | hq
      · exact depth_ofSteps_le (by simp) hinit
      · exact ih hinit hq

theorem depth_le_of_mem_withEnclosing {p q : Path} {working : Place}
    (hq : q ∈ p.withEnclosing) : q.depth working ≤ p.depth working := by
  unfold withEnclosing at hq
  split at hq
  · cases hq
  · rcases List.mem_cons.1 hq with rfl | hq
    · exact Nat.le_refl _
    · exact depth_le_of_mem_around (by simp) hq

theorem namedSteps_parts (p : Path) : namedSteps p.parts = namedSteps p.components := by
  rw [← FileTree.namedSteps_dropNothing p.parts, ← FileTree.entryComponents_eq,
    FileTree.entryComponents, FileTree.namedSteps_dropNothing]

theorem parts_subset (p : Path) : p.parts ⊆ p.components := by
  rcases p.text_cases with h | ⟨cs, h⟩ | ⟨cs, c, hc, h⟩
  · rw [parts_of_nil h]
    exact List.nil_subset _
  · rw [(parts_of_slash h).2]
    exact List.subset_append_left _ _
  · rw [parts_of_other hc h]
    exact List.Subset.refl _

end Path

namespace FileTree

variable {t u : FileTree} {place d : Place} {names : List String}

/-- Whatever stands in a tree stands in a directory. -/
def IsGrounded (t : FileTree) : Prop :=
  ∀ name place, t.node? (name :: place) ≠ none → t.IsDirectory place

theorem IsGrounded.isDirectory (h : t.IsGrounded) {outer : Place}
    (hd : t.IsDirectory (outer ++ place)) : t.IsDirectory place := by
  induction outer with
  | nil => exact hd
  | cons name outer ih =>
    obtain ⟨mode, hm⟩ := hd
    refine ih (h name _ ?_)
    rw [← List.cons_append, hm]
    simp

theorem IsGrounded.walk (h : t.IsGrounded) (hup : ".." ∉ names) (hd : t.IsDirectory d)
    (hwalk : u.walk place names = .ok d) : t.walk place names = .ok d := by
  induction names generalizing place with
  | nil => exact hwalk
  | cons name names ih =>
    have hplace : t.IsDirectory place := by
      rw [eq_of_walk hup hwalk] at hd
      exact h.isDirectory hd
    simp only [List.mem_cons, not_or] at hup
    simp only [FileTree.walk] at hwalk ⊢
    cases hs : u.step place name with
    | error e => rw [hs] at hwalk; cases hwalk
    | ok next =>
      rw [hs] at hwalk
      rw [step_eq_of_isDirectory (isDirectory_of_step hs) hplace, hs]
      exact ih hup.2 hwalk

end FileTree

namespace World

theorem grows_withDirectory (w : World) (p : Path) :
    FileTree.Grows (p.depth w.tree.working) w.tree (w.withDirectory p).tree := by
  refine withDirectory_induction ?_ (.refl _ _)
  intro q hq t u ht hmake
  have hdepth : q.depth t.working ≤ p.depth t.working := Path.depth_le_of_mem_withEnclosing hq
  rw [ht.working] at hdepth
  exact ht.trans (FileTree.grows_makeDirectory hmake (by rwa [ht.working]))

theorem stat?_withDirectory_of_absent {w : World} {p : Path} {n : String} (hn : IsEntryName n)
    (hgrounded : w.tree.IsGrounded) (hup : ".." ∉ p.components)
    (habsent : ∀ d, ¬ w.tree.Enters p d) : (w.withDirectory p).tree.stat? (p.child n) = none := by
  have hgrows := w.grows_withDirectory p
  have hparts : ".." ∉ p.parts := fun h ↦ hup (p.parts_subset h)
  cases hstat : (w.withDirectory p).tree.stat? (p.child n) with
  | none => rfl
  | some node =>
    obtain ⟨d, hd, hnode⟩ := FileTree.leadsInto_of_stat? hn hstat
    have hwalk := hd.enters.walk
    rw [FileTree.origin, hgrows.working, ← FileTree.origin] at hwalk
    rcases hgrows.node? (n :: d) with he | ⟨-, -, hlength⟩
    · have hplace := hgrounded n d (by rw [← he, hnode]; simp)
      exact absurd ⟨hgrounded.walk hparts hplace hwalk, hplace⟩ (habsent d)
    · -- The directory itself stands as deep as any that was made.
      have hd := congrArg List.length (FileTree.eq_of_walk hparts hwalk)
      rw [List.length_append, List.length_reverse, p.namedSteps_parts] at hd
      rw [Path.depth, ← FileTree.origin, List.length_cons] at hlength
      omega

end World

end PackageStaging
