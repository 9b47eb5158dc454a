import PackageStaging.Proofs.Config.Written
import PackageStaging.Proofs.Gate.Accepted
import PackageStaging.Proofs.Json.Layout

namespace PackageStaging

open Json (IsText IsBoolean IsOptional IsObject IsValue Makes NamedEntry ReadsValues)

theorem GateStatus.readsValues_reader (depth : Nat) : ReadsValues (reader depth) Denotes := by
  intro letters hvalue gap rest hgap hrest status r
  constructor
  · intro h
    obtain ⟨c, cs, rfl, hspace, -⟩ := hvalue.exists_cons
    obtain ⟨value, hread, hstatus⟩ := GateStatus.reader_eq_ok_iff.1 h
    have hstems := Json.stems_of_readValue hread
    rw [List.cons_append, Json.skipSpace_append hgap hspace] at hstems
    rcases GateStatus.ofValue_cases hstatus with rfl | ⟨n, rfl⟩
    · obtain ⟨s, hquote, htext⟩ := hstems
      obtain ⟨rfl, rfl⟩ := List.cons.inj hquote
      obtain ⟨rfl, raw, heq, hspells⟩ := Json.isText_of_readText hvalue htext
      rw [heq]
      exact ⟨rfl, .of_name hspells⟩
    · obtain ⟨i, hinteger, hfits, rfl⟩ := GateStatus.ofValue_number.1 hstatus
      obtain ⟨found, heq, hfound, hlow, -⟩ := Json.exists_integer_of_readNumber hstems hinteger
      obtain ⟨d, ds, rfl, hd⟩ := hfound.exists_cons
      obtain ⟨rfl, -⟩ := List.cons.inj heq
      -- The value and the integer in front of it are one numeral, so they end in the same place.
      obtain ⟨numeral, hnumeral, -⟩ := Json.exists_of_readNumber hstems
      obtain ⟨numeral', hnumeral'⟩ : ∃ n,
          Json.readNumeral .endOfValue (c :: cs ++ rest) = .ok (n, rest) :=
        Json.exists_readNumeral (hvalue.of_opensNumeral hd) hrest
      rw [List.cons_append, hnumeral] at hnumeral'
      cases hnumeral'
      rw [← List.cons_append] at heq
      rw [List.append_cancel_right heq]
      exact ⟨rfl, .of_code hfound hlow hfits⟩
  · rintro ⟨rfl, hdenotes⟩
    exact GateStatus.reader_of_denotes hdenotes hgap hrest depth

namespace Config

/-- What one member can give: the value of one field. -/
inductive Setting
  | status (status : GateStatus)
  | addVerb (verb : String)
  | removeVerb (verb : String)
  | preHook (hook : Option String)
  | postHook (hook : Option String)
  | catalogUrl (url : Option String)
  | dryRun (dryRun : Bool)
  | base (base : Option String)

namespace Setting

def key : Setting → String
  | status _ => "status"
  | addVerb _ => "add-verb"
  | removeVerb _ => "remove-verb"
  | preHook _ => "pre-hook"
  | postHook _ => "post-hook"
  | catalogUrl _ => "catalog-url"
  | dryRun _ => "dry-run"
  | base _ => "base-dir"

def IsGivenAs (letters : List Char) : Setting → Prop
  | status s => GateStatus.Denotes letters s
  | addVerb t | removeVerb t => IsText letters t
  | preHook t? | postHook t? | catalogUrl t? | base t? => IsOptional IsText letters t?
  | dryRun b => IsBoolean letters b

def apply : Setting → Config → Config
  | status s, c => { c with status := s }
  | addVerb t, c => { c with addVerb := t }
  | removeVerb t, c => { c with removeVerb := t }
  | preHook t?, c => { c with preHook := t? }
  | postHook t?, c => { c with postHook := t? }
  | catalogUrl t?, c => { c with catalogUrl := t? }
  | dryRun b, c => { c with dryRun := b }
  | base t?, c => { c with baseDirectory := t?.map Path.mk }

end Setting

def Has (c : Config) : Setting → Prop
  | .status status => c.status = status
  | .addVerb verb => c.addVerb = verb
  | .removeVerb verb => c.removeVerb = verb
  | .preHook hook => c.preHook = hook
  | .postHook hook => c.postHook = hook
  | .catalogUrl url => c.catalogUrl = url
  | .dryRun dryRun => c.dryRun = dryRun
  | .base base => c.baseDirectory = base.map Path.mk

variable {c d : Config} {s s' : Setting}

theorem eq_of_has (h : ∀ s, c.Has s → d.Has s) : c = d := by
  have hbase : c.baseDirectory = (c.baseDirectory.map Path.text).map Path.mk := by
    cases c.baseDirectory <;> rfl
  have hstatus : d.status = c.status := h (.status _) rfl
  have haddVerb : d.addVerb = c.addVerb := h (.addVerb _) rfl
  have hremoveVerb : d.removeVerb = c.removeVerb := h (.removeVerb _) rfl
  have hpreHook : d.preHook = c.preHook := h (.preHook _) rfl
  have hpostHook : d.postHook = c.postHook := h (.postHook _) rfl
  have hcatalogUrl : d.catalogUrl = c.catalogUrl := h (.catalogUrl _) rfl
  have hdryRun : d.dryRun = c.dryRun := h (.dryRun _) rfl
  have hbaseDirectory : d.baseDirectory = c.baseDirectory := (h (.base _) hbase).trans hbase.symm
  rcases c with ⟨⟩
  rcases d with ⟨⟩
  rw [Config.mk.injEq]
  exact ⟨hstatus.symm, haddVerb.symm, hremoveVerb.symm, hpreHook.symm, hpostHook.symm,
    hcatalogUrl.symm, hdryRun.symm, hbaseDirectory.symm⟩

theorem has_apply : (s.apply c).Has s' ↔ s' = s ∨ s'.key ≠ s.key ∧ c.Has s' := by
  have hmk : Function.Injective (Option.map Path.mk) :=
    Option.map_injective fun _ _ h ↦ congrArg Path.text h
  cases s <;> cases s' <;> simp [Setting.apply, Setting.key, Has, hmk.eq_iff, eq_comm]

/-- What the member of a key makes of a configuration, by the letters of its value. -/
def Means (key : String) (letters : List Char) (set : Config → Config) : Prop :=
  ∃ s : Setting, s.key = key ∧ s.IsGivenAs letters ∧ set = s.apply

variable {key : String} {letters : List Char}

theorem readsValues_setting {ε α : Type} {read : Json.Input → Except ε (α × Json.Input)}
    {given : List Char → α → Prop} (h : ReadsValues read given) (make : α → Setting) (key : String)
    (hgiven : ∀ letters a, (make a).IsGivenAs letters ↔ given letters a)
    (hkey : ∀ s, s.key = key ↔ ∃ a, s = make a) :
    ReadsValues (fun s ↦ (read s).map fun (a, r) ↦ ((make a).apply, r)) (Means key) := by
  refine (h.map fun a ↦ (make a).apply).congr fun letters set ↦ ?_
  constructor
  · rintro ⟨s, hs, hmeant, rfl⟩
    obtain ⟨a, rfl⟩ := (hkey s).1 hs
    exact ⟨a, (hgiven letters a).1 hmeant, rfl⟩
  · rintro ⟨a, hmeant, rfl⟩
    exact ⟨make a, (hkey _).2 ⟨a, rfl⟩, (hgiven letters a).2 hmeant, rfl⟩

theorem not_isText_null (cs : List Char) (t : String) : ¬ IsText ('n' :: cs) t := by
  rintro ⟨raw, heq, -⟩
  cases heq

theorem readsValues_fields (key : String) (field : Json.Field Config)
    (h : fields.find? (·.key == key) = some field) : ReadsValues field.read (Means key) := by
  have hkey : field.key = key := by simpa using List.find?_some h
  subst hkey
  have hstatus := GateStatus.readsValues_reader (Json.depthLimit - 1)
  have htext := Json.readsValues_readString "a string"
  have hboolean := Json.readsValues_readBoolean
  have hoptional (wanted : String) :=
    Json.readsValues_readOption (Json.readsValues_readString wanted) not_isText_null
  have hmem := List.mem_of_find?_eq_some h
  simp only [fields, List.mem_cons, List.not_mem_nil, or_false] at hmem
  rcases hmem with rfl | rfl | rfl | rfl | rfl | rfl | rfl | rfl
  · exact readsValues_setting hstatus Setting.status "status" (fun _ _ ↦ Iff.rfl)
      fun s ↦ by cases s <;> simp [Setting.key]
  · exact (readsValues_setting htext Setting.addVerb "add-verb" (fun _ _ ↦ Iff.rfl)
      fun s ↦ by cases s <;> simp [Setting.key]).mapError _
  · exact (readsValues_setting htext Setting.removeVerb "remove-verb" (fun _ _ ↦ Iff.rfl)
      fun s ↦ by cases s <;> simp [Setting.key]).mapError _
  · exact (readsValues_setting (hoptional _) Setting.preHook "pre-hook" (fun _ _ ↦ Iff.rfl)
      fun s ↦ by cases s <;> simp [Setting.key]).mapError _
  · exact (readsValues_setting (hoptional _) Setting.postHook "post-hook" (fun _ _ ↦ Iff.rfl)
      fun s ↦ by cases s <;> simp [Setting.key]).mapError _
  · exact (readsValues_setting (hoptional _) Setting.catalogUrl "catalog-url" (fun _ _ ↦ Iff.rfl)
      fun s ↦ by cases s <;> simp [Setting.key]).mapError _
  · exact (readsValues_setting hboolean Setting.dryRun "dry-run" (fun _ _ ↦ Iff.rfl)
      fun s ↦ by cases s <;> simp [Setting.key]).mapError _
  · exact (readsValues_setting (hoptional _) Setting.base "base-dir" (fun _ _ ↦ Iff.rfl)
      fun s ↦ by cases s <;> simp [Setting.key]).mapError _

def keys : List String := fields.map Json.Field.key

theorem Setting.key_mem_keys (s : Setting) : s.key ∈ keys := by
  cases s <;>
    simp [keys, fields, key, Json.Field.string, Json.Field.string?, Json.Field.boolean]

theorem find?_eq_none_iff : fields.find? (·.key == key) = none ↔ key ∉ keys := by
  simp [keys]

theorem Setting.IsGivenAs.unique (hvalue : IsValue letters) (hkey : s'.key = s.key)
    (h : s.IsGivenAs letters) (h' : s'.IsGivenAs letters) : s' = s := by
  cases hfind : fields.find? (·.key == s.key) with
  | none => exact absurd s.key_mem_keys (find?_eq_none_iff.1 hfind)
  | some field =>
    have happly : s'.apply = s.apply := (readsValues_fields _ _ hfind).unique hvalue
      ⟨s', hkey, h', rfl⟩ ⟨s, rfl, h, rfl⟩
    have hhas : (s'.apply {}).Has s' := has_apply.2 (.inl rfl)
    rw [happly] at hhas
    rcases has_apply.1 hhas with heq | ⟨hne, -⟩
    · exact heq
    · exact absurd hkey hne

def given (entries : List NamedEntry) : List (String × List Char) :=
  (entries.filter (keys.contains ·.name)).map fun e ↦ (e.name, e.value)

def IsTyped (member : String × List Char) : Prop :=
  ∃ s : Setting, s.key = member.1 ∧ s.IsGivenAs member.2

/-- A setting is given by a member, or its key is not there and it is one that was there before. -/
def IsSetBy (before : Config) (members : List (String × List Char)) (s : Setting) : Prop :=
  (∃ letters, (s.key, letters) ∈ members ∧ s.IsGivenAs letters) ∨
    s.key ∉ members.map Prod.fst ∧ before.Has s

/-- The settings of a configuration are the given ones, and the default ones for all other keys. -/
def IsGivenBy (c : Config) (members : List (String × List Char)) : Prop :=
  ∀ s, c.Has s ↔ IsSetBy {} members s

variable {e : NamedEntry} {entries : List NamedEntry} {seen : List String}
  {members : List (String × List Char)}

theorem given_cons_of_known (h : e.name ∈ keys) :
    given (e :: entries) = (e.name, e.value) :: given entries := by
  simp [given, h]

theorem given_cons_of_unknown (h : e.name ∉ keys) : given (e :: entries) = given entries := by
  simp [given, h]

theorem isSetBy_cons (hvalue : IsValue letters) (hs : s.IsGivenAs letters)
    (hnew : s.key ∉ members.map Prod.fst) :
    IsSetBy c ((s.key, letters) :: members) s' ↔ IsSetBy (s.apply c) members s' := by
  by_cases hkey : s'.key = s.key
  · have hnone : ∀ letters, (s.key, letters) ∉ members :=
      fun letters hmem ↦ hnew (List.mem_map.2 ⟨_, hmem, rfl⟩)
    have hgiven : s'.IsGivenAs letters ↔ s' = s :=
      ⟨fun h ↦ hs.unique hvalue hkey h, fun h ↦ h ▸ hs⟩
    simp [IsSetBy, hkey, has_apply, hnone, hnew, hgiven]
  · have hne : s' ≠ s := fun h ↦ hkey (congrArg Setting.key h)
    simp [IsSetBy, hkey, has_apply, hne]

theorem isGivenBy_unique (hc : c.IsGivenBy members) (hd : d.IsGivenBy members) : c = d :=
  eq_of_has fun s hs ↦ (hd s).2 ((hc s).1 hs)

structure Gives (seen : List String) (before : Config) (members : List (String × List Char))
    (made : Config) : Prop where
  nodup : (members.map Prod.fst).Nodup
  unseen : ∀ key ∈ members.map Prod.fst, key ∉ seen
  typed : ∀ m ∈ members, IsTyped m
  has_iff (s : Setting) : made.Has s ↔ IsSetBy before members s

theorem gives_of_makes (hvalid : ∀ e ∈ entries, IsValue e.value)
    (h : Makes fields Means seen c entries d) : Gives seen c (given entries) d := by
  induction h with
  | done => exact ⟨List.nodup_nil, nofun, nofun, fun s ↦ by simp [IsSetBy, given]⟩
  | skipped unknown _ ih =>
    rw [given_cons_of_unknown (find?_eq_none_iff.1 unknown)]
    exact ih (List.forall_mem_cons.1 hvalid).2
  | taken known unseen is_meant _ ih =>
    obtain ⟨hvalue, hvalid⟩ := List.forall_mem_cons.1 hvalid
    obtain ⟨s, hkey, hs, rfl⟩ := is_meant
    obtain ⟨hnodup, hunseen, htyped, hhas⟩ := ih hvalid
    -- A later member of this key would have been refused, as the key was seen by then.
    have hnew : s.key ∉ (given _).map Prod.fst := fun hmem ↦
      hunseen _ hmem (hkey ▸ List.mem_cons_self)
    rw [given_cons_of_known (hkey ▸ s.key_mem_keys), ← hkey]
    refine ⟨List.nodup_cons.2 ⟨hnew, hnodup⟩, ?_, ?_, ?_⟩
    · refine List.forall_mem_cons.2 ⟨hkey ▸ unseen, fun key hmem hseen ↦ ?_⟩
      exact hunseen key hmem (List.mem_cons_of_mem _ hseen)
    · exact List.forall_mem_cons.2 ⟨⟨s, rfl, hs⟩, htyped⟩
    · exact fun s' ↦ (hhas s').trans (isSetBy_cons hvalue hs hnew).symm

theorem exists_makes (hnodup : ((given entries).map Prod.fst).Nodup)
    (hunseen : ∀ key ∈ (given entries).map Prod.fst, key ∉ seen)
    (htyped : ∀ m ∈ given entries, IsTyped m) (c : Config) :
    ∃ d, Makes fields Means seen c entries d := by
  induction entries generalizing seen c with
  | nil => exact ⟨c, .done⟩
  | cons e entries ih =>
    by_cases hknown : e.name ∈ keys
    · rw [given_cons_of_known hknown] at hnodup hunseen htyped
      obtain ⟨hnew, hnodup⟩ := List.nodup_cons.1 hnodup
      obtain ⟨hfirst, hunseen⟩ := List.forall_mem_cons.1 hunseen
      obtain ⟨⟨s, hkey, hs⟩, htyped⟩ := List.forall_mem_cons.1 htyped
      have hlater : ∀ key ∈ (given entries).map Prod.fst, key ∉ e.name :: seen := by
        intro key hmem hseen
        rcases List.mem_cons.1 hseen with rfl | hseen
        · exact hnew hmem
        · exact hunseen key hmem hseen
      obtain ⟨d, hd⟩ := ih hnodup hlater htyped (s.apply c)
      cases hfind : fields.find? (·.key == e.name) with
      | none => exact absurd hknown (find?_eq_none_iff.1 hfind)
      | some field => exact ⟨d, .taken hfind hfirst ⟨s, hkey, hs, rfl⟩ hd⟩
    · rw [given_cons_of_unknown hknown] at hnodup hunseen htyped
      obtain ⟨d, hd⟩ := ih hnodup hunseen htyped c
      exact ⟨d, .skipped (find?_eq_none_iff.2 hknown) hd⟩

variable {w v : World} {path p : Path} {text other : String} {others : List NamedEntry}

theorem perform_load_of_read (hfile : w.tree.read path = .ok text.toUTF8) :
    w.perform (load path) = ((read text).mapError (.configMalformed path), w) := by
  obtain ⟨mode, hstat⟩ := FileTree.stat?_of_read hfile
  rw [perform_load, loadIn, hstat, FileTree.text_of_read hfile]

/-- The members of known keys are there once each, and their values are of the right types. -/
structure IsSound (members : List (String × List Char)) : Prop where
  nodup : (members.map Prod.fst).Nodup
  typed : ∀ m ∈ members, IsTyped m

theorem read_eq_ok_iff (hobject : IsObject text entries) :
    read text = .ok c ↔ IsSound (given entries) ∧ c.IsGivenBy (given entries) := by
  have hvalid : ∀ e ∈ entries, IsValue e.value := by
    obtain ⟨_, _, _, -, -, -, -, hvalid⟩ := hobject
    exact fun e he ↦ (hvalid e he).is_value
  rw [read, Json.document_readRecord_eq_ok_iff hobject readsValues_fields]
  constructor
  · intro hmakes
    have hgives := gives_of_makes hvalid hmakes
    exact ⟨⟨hgives.nodup, hgives.typed⟩, hgives.has_iff⟩
  · rintro ⟨hsound, hc⟩
    obtain ⟨d, hd⟩ : ∃ d, Makes fields Means [] {} entries d :=
      exists_makes hsound.nodup (fun _ _ ↦ List.not_mem_nil) hsound.typed _
    rwa [isGivenBy_unique hc (gives_of_makes hvalid hd).has_iff]

theorem exists_read_eq_ok (hobject : IsObject text entries) (hsound : IsSound (given entries)) :
    ∃ c, read text = .ok c := by
  obtain ⟨c, hc⟩ : ∃ c, Makes fields Means [] {} entries c :=
    exists_makes hsound.nodup (fun _ _ ↦ List.not_mem_nil) hsound.typed _
  exact ⟨c, (Json.document_readRecord_eq_ok_iff hobject readsValues_fields _).2 hc⟩

/-- Layouts with the same members of known keys: in any order, with any space between them, among
any other members. -/
def SameMembers (entries others : List NamedEntry) : Prop := (given entries).Perm (given others)

theorem SameMembers.isSound (h : SameMembers entries others) (hsound : IsSound (given entries)) :
    IsSound (given others) where
  nodup := (h.map Prod.fst).nodup_iff.1 hsound.nodup
  typed m hm := hsound.typed m (h.mem_iff.2 hm)

theorem SameMembers.isGivenBy (h : SameMembers entries others)
    (hc : c.IsGivenBy (given entries)) : c.IsGivenBy (given others) := by
  intro s
  simp only [hc s, IsSetBy, h.mem_iff, (h.map Prod.fst).mem_iff]

/-- What a configuration file says does not depend on its layout. An object whose known members are
sound loads as the one configuration that has the given settings, and the default ones where nothing
is given; a repeated known key or a value of another type than its key wants is an error. Another
layout of the same members loads as the same configuration. -/
theorem load_of_layout (hfile : w.tree.read path = .ok text.toUTF8)
    (hobject : IsObject text entries) :
    (IsSound (given entries) → ∃ c, w.perform (load path) = (.ok c, w) ∧
      ∀ d : Config, d.IsGivenBy (given entries) ↔ d = c) ∧
    (¬ IsSound (given entries) →
      ∃ e, w.perform (load path) = (.error (.configMalformed path e), w)) ∧
    ∀ (v : World) (p : Path) (other : String) (others : List NamedEntry),
      v.tree.read p = .ok other.toUTF8 → IsObject other others → SameMembers entries others →
      ∀ c, w.perform (load path) = (.ok c, w) → v.perform (load p) = (.ok c, v) := by
  refine ⟨fun hsound ↦ ?_, fun hunsound ↦ ?_, ?_⟩
  · obtain ⟨c, hread⟩ := exists_read_eq_ok hobject hsound
    have hc := ((read_eq_ok_iff hobject).1 hread).2
    refine ⟨c, by rw [perform_load_of_read hfile, hread]; rfl, fun d ↦ ⟨?_, ?_⟩⟩
    · exact fun hd ↦ isGivenBy_unique hd hc
    · rintro rfl
      exact hc
  · rw [perform_load_of_read hfile]
    cases hread : read text with
    | ok c => exact absurd ((read_eq_ok_iff hobject).1 hread).1 hunsound
    | error e => exact ⟨e, rfl⟩
  · intro v p other others hfile' hobject' hsame c hload
    rw [perform_load_of_read hfile] at hload
    cases hread : read text with
    | error e =>
      rw [hread] at hload
      cases hload
    | ok found =>
      rw [hread] at hload
      cases hload
      obtain ⟨hsound, hc⟩ := (read_eq_ok_iff hobject).1 hread
      rw [perform_load_of_read hfile',
        (read_eq_ok_iff hobject').2 ⟨hsame.isSound hsound, hsame.isGivenBy hc⟩]
      rfl

def scattered : String :=
  "\x7b \"x\" : [ \x7b \x7d , \"\\ud800\" ] ,\n\"dry\\u002drun\":true , \"pre-hook\" : null \x7d\t"

def scatteredEntries : List NamedEntry :=
  [⟨⟨[' '], ['x'], [' '], [' '], "[ \x7b \x7d , \"\\ud800\" ]".toList, [' ']⟩, "x"⟩,
    ⟨⟨['\n'], "dry\\u002drun".toList, [], [], "true".toList, [' ']⟩, "dry-run"⟩,
    ⟨⟨[' '], "pre-hook".toList, [' '], [' '], "null".toList, [' ']⟩, "pre-hook"⟩]

theorem isObject_scattered : IsObject scattered scatteredEntries := by
  have hspace : Json.IsPadding [' '] := by simp [Json.IsPadding]
  have hline : Json.IsPadding ['\n'] := by simp [Json.IsPadding]
  have hnone : Json.IsPadding [] := nofun
  have hempty : IsValue "\x7b \x7d".toList :=
    @IsValue.object [] [' '] (.blank hspace) nofun nofun nofun
  have hhalf : IsValue "\"\\ud800\"".toList := by
    refine .text (.unit (n := 0xD800) ⟨13, 8, 0, 0, ?_, ?_, ?_, ?_, rfl⟩ .nil) <;>
      exact ⟨by decide, .inl rfl⟩
  have hnested : IsValue "[ \x7b \x7d , \"\\ud800\" ]".toList :=
    @IsValue.list [⟨[' '], "\x7b \x7d".toList, [' ']⟩, ⟨[' '], "\"\\ud800\"".toList, [' ']⟩] _
      (.filled _ _)
      (List.forall_mem_cons.2 ⟨⟨hspace, hspace⟩, List.forall_mem_singleton.2 ⟨hspace, hspace⟩⟩)
      (List.forall_mem_cons.2 ⟨hempty, List.forall_mem_singleton.2 hhalf⟩)
  have hunit : Json.IsHexUnit '0' '0' '2' 'd' '-'.toNat := by
    refine ⟨0, 0, 2, 13, ?_, ?_, ?_, ?_, rfl⟩ <;> exact ⟨by decide, .inl rfl⟩
  have hdash : Json.Spells "dry\\u002drun".toList "dry-run".toList := by
    refine .plain ?_ ?_ ?_ (.plain ?_ ?_ ?_ (.plain ?_ ?_ ?_
      (.unit hunit (Json.spells_written "run".toList))))
    all_goals decide
  refine ⟨[], _, ['\t'], rfl, hnone, by simp [Json.IsPadding], .filled _ _, ?_⟩
  refine List.forall_mem_cons.2 ⟨⟨⟨hspace, hspace, hspace, hspace⟩, ?_, hnested⟩, ?_⟩
  · exact Json.spells_written ['x']
  refine List.forall_mem_cons.2 ⟨⟨⟨hline, hnone, hnone, hspace⟩, hdash, ?_⟩, ?_⟩
  · exact .keyword (by decide)
  refine List.forall_mem_singleton.2 ⟨⟨hspace, hspace, hspace, hspace⟩, ?_, ?_⟩
  · exact Json.spells_written "pre-hook".toList
  · exact .keyword (by decide)

theorem load_of_layout_scattered :
    let file : Node := .file scattered.toUTF8 FileTree.newFileMode
    let w : World := { World.bare with tree := World.bare.tree.put ["config.json"] file }
    w.tree.read ⟨"/config.json"⟩ = .ok scattered.toUTF8 ∧ IsObject scattered scatteredEntries ∧
      ∃ c, w.perform (load ⟨"/config.json"⟩) = (.ok c, w) ∧ c.dryRun = true ∧ c.preHook = none ∧
        c.status = .disabled := by
  intro file w
  have hread : w.tree.read ⟨"/config.json"⟩ = .ok scattered.toUTF8 := rfl
  have hgiven : given scatteredEntries =
      [("dry-run", "true".toList), ("pre-hook", "null".toList)] := rfl
  have hsound : IsSound (given scatteredEntries) := by
    rw [hgiven]
    refine ⟨by decide, ?_⟩
    refine List.forall_mem_cons.2 ⟨⟨.dryRun true, rfl, rfl⟩, ?_⟩
    exact List.forall_mem_singleton.2 ⟨.preHook none, rfl, .null⟩
  obtain ⟨c, hload, hc⟩ := (load_of_layout hread isObject_scattered).1 hsound
  have hhas := (hc c).2 rfl
  rw [hgiven] at hhas
  refine ⟨hread, isObject_scattered, c, hload, ?_, ?_, ?_⟩
  · exact (hhas (.dryRun true)).2 (.inl ⟨"true".toList, by simp [Setting.key], rfl⟩)
  · exact (hhas (.preHook none)).2 (.inl ⟨"null".toList, by simp [Setting.key], .null⟩)
  · exact (hhas (.status .disabled)).2 (.inr ⟨by simp [Setting.key], rfl⟩)

end Config

end PackageStaging
