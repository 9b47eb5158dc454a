import Mathlib.Data.List.TakeWhile
import PackageStaging.Url.Basic

namespace PackageStaging

section Lists

variable {α : Type} {p : α → Bool}

theorem dropWhile_append_cons {c : α} (hc : p c = false) (xs ys : List α) :
    (xs ++ c :: ys).dropWhile p = xs.dropWhile p ++ c :: ys := by
  induction xs with
  | nil => simp [hc]
  | cons x xs ih =>
    rw [List.cons_append, List.dropWhile_cons, List.dropWhile_cons, ih]
    split <;> rfl

theorem takeWhile_append_cons {c : α} (hc : p c = false) (xs ys : List α) :
    (xs ++ c :: ys).takeWhile p = xs.takeWhile p := by
  induction xs with
  | nil => simp [hc]
  | cons x xs ih => rw [List.cons_append, List.takeWhile_cons, List.takeWhile_cons, ih]

theorem span_append {xs rest : List α} {c : α} (h : xs.dropWhile p = c :: rest) (ys : List α) :
    (xs ++ ys).dropWhile p = c :: (rest ++ ys) ∧ (xs ++ ys).takeWhile p = xs.takeWhile p := by
  induction xs with
  | nil => cases h
  | cons x xs ih =>
    rw [List.dropWhile_cons] at h
    rw [List.cons_append, List.dropWhile_cons, List.takeWhile_cons, List.takeWhile_cons]
    split at h
    · rename_i hx
      simp only [hx, if_true, (ih h).1, (ih h).2, and_self]
    · rename_i hx
      cases h
      simp only [hx, if_false, and_self, Bool.false_eq_true]

end Lists

namespace Url

def isEdge (c : Char) : Bool := c.toNat ≤ 0x20

def isBreak (c : Char) : Bool := c == '\t' || c == '\n' || c == '\r'

def stripStart (cs : List Char) : List Char := (cs.dropWhile isEdge).filter (!isBreak ·)

def stripEnd (cs : List Char) : List Char :=
  (cs.reverse.dropWhile isEdge).reverse.filter (!isBreak ·)

theorem isEdge_of_isBreak {c : Char} (h : isBreak c) : isEdge c := by
  simp only [isBreak, Bool.or_eq_true, beq_iff_eq] at h
  rcases h with (rfl | rfl) | rfl <;> rfl

/-- Around a text with no blanks the two ends are stripped apart from one another. -/
theorem strip_around {text : List Char} (hne : text ≠ []) (htext : ∀ c ∈ text, isEdge c = false)
    (before after : List Char) :
    strip (before ++ text ++ after) = stripStart before ++ text ++ stripEnd after := by
  have hstrip (cs : List Char) : strip cs =
      ((cs.dropWhile isEdge).reverse.dropWhile isEdge).reverse.filter (!isBreak ·) := rfl
  have hfront (more : List Char) :
      (before ++ (text ++ more)).dropWhile isEdge = before.dropWhile isEdge ++ (text ++ more) := by
    obtain ⟨c, cs, rfl⟩ := List.exists_cons_of_ne_nil hne
    exact dropWhile_append_cons (htext c List.mem_cons_self) before (cs ++ more)
  have hback (more : List Char) : (after.reverse ++ (text.reverse ++ more)).dropWhile isEdge =
      after.reverse.dropWhile isEdge ++ (text.reverse ++ more) := by
    obtain ⟨c, cs, hcs⟩ := List.exists_cons_of_ne_nil (mt List.reverse_eq_nil_iff.1 hne)
    have hc : c ∈ text := by
      rw [← List.mem_reverse, hcs]
      exact List.mem_cons_self
    rw [hcs]
    exact dropWhile_append_cons (htext c hc) after.reverse (cs ++ more)
  have hkept : text.filter (!isBreak ·) = text := by
    refine List.filter_eq_self.2 fun c hc ↦ ?_
    rw [Bool.not_eq_true', Bool.eq_false_iff]
    intro hbreak
    have hedge := isEdge_of_isBreak hbreak
    simp [htext c hc] at hedge
  rw [hstrip, List.append_assoc, hfront, List.reverse_append, List.reverse_append,
    List.append_assoc, hback, List.reverse_append, List.reverse_append, List.reverse_reverse,
    List.reverse_reverse, List.filter_append, List.filter_append, hkept]
  rfl

def isSchemePart (c : Char) : Bool := c.isAlphanum || c == '+' || c == '-' || c == '.'

theorem readScheme?_eq_some {cs rest : List Char} {scheme : String} :
    readScheme? cs = some (scheme, rest) ↔ (∃ c, cs.head? = some c ∧ c.isAlpha) ∧
      cs.dropWhile isSchemePart = ':' :: rest ∧
      String.ofList ((cs.takeWhile isSchemePart).map Char.toLower) = scheme := by
  cases cs with
  | nil => simp [readScheme?]
  | cons c cs =>
    have hpart : (fun c : Char ↦ c.isAlphanum || c == '+' || c == '-' || c == '.') =
        isSchemePart := rfl
    simp only [readScheme?, hpart, List.head?_cons, Option.some.injEq, exists_eq_left']
    constructor
    · intro h
      split at h
      · rename_i text hdrop
        split at h
        · rename_i halpha
          cases h
          exact ⟨halpha, hdrop, rfl⟩
        · cases h
      · cases h
    · rintro ⟨halpha, hdrop, rfl⟩
      simp only [hdrop, halpha, if_true]

theorem readScheme?_append {cs rest : List Char} {scheme : String}
    (h : readScheme? cs = some (scheme, rest)) (more : List Char) :
    readScheme? (cs ++ more) = some (scheme, rest ++ more) := by
  obtain ⟨⟨c, hc, halpha⟩, hdrop, hscheme⟩ := readScheme?_eq_some.1 h
  have hcut := span_append hdrop more
  rw [readScheme?_eq_some, hcut.1, hcut.2]
  exact ⟨⟨c, by simp [List.head?_append, hc], halpha⟩, rfl, hscheme⟩

/-- A brace stands in no scheme, so a scheme that is found was found before it. -/
theorem readScheme?_of_brace {cs more rest : List Char} {scheme : String}
    (h : readScheme? (cs ++ '\x7b' :: more) = some (scheme, rest)) :
    ∃ rest, readScheme? cs = some (scheme, rest) := by
  obtain ⟨⟨c, hc, halpha⟩, hdrop, hscheme⟩ := readScheme?_eq_some.1 h
  have hbrace : isSchemePart '\x7b' = false := by decide
  rw [dropWhile_append_cons hbrace] at hdrop
  rw [takeWhile_append_cons hbrace] at hscheme
  cases hrest : cs.dropWhile isSchemePart with
  | nil => simp [hrest] at hdrop
  | cons d ds =>
    cases cs with
    | nil => cases hrest
    | cons _ _ =>
      rw [hrest, List.cons_append, List.cons.injEq] at hdrop
      exact ⟨ds, readScheme?_eq_some.2 ⟨⟨c, hc, halpha⟩, by rw [hrest, hdrop.1], hscheme⟩⟩

theorem length_of_splitLastAt? {cs user after : List Char}
    (h : splitLastAt? cs = some (user, after)) : user.length < cs.length := by
  unfold splitLastAt? at h
  split at h
  · cases h
  · rename_i at_sign before hbefore
    cases h
    have hsuffix := (List.dropWhile_suffix (· != '@') (l := cs.reverse)).length_le
    rw [hbefore, List.length_reverse] at hsuffix
    rw [List.length_reverse]
    exact hsuffix

def followedBy (u : Url) (cs : List Char) : Url :=
  { u with
    path := readPathAfterAuthority true false (cs.takeWhile (!isPathEnd ·))
    query := (readTail true (cs.dropWhile (!isPathEnd ·))).1
    fragment := (readTail true (cs.dropWhile (!isPathEnd ·))).2 }

def readBehindHost (scheme : String) (user : String × Option String) (host : Option Host)
    (cs : List Char) : Except UrlFault Url := do
  if host.isNone && cs.head? == some ':' then throw .emptyHost
  let (port, rest) ← match cs with
    | ':' :: rest => readPort (defaultPort? scheme) rest
    | rest => pure (none, rest)
  if host.isNone && !(user.1.isEmpty && user.2.isNone) then throw .emptyHost
  return followedBy ⟨scheme, user.1, user.2, host, true, port, "", none, none⟩ rest

theorem readWithAuthority_eq {scheme : String} (hscheme : isSpecial scheme) (cs : List Char) :
    readWithAuthority scheme cs = (do
      let (user, cs) ← readUser true cs
      let length := hostLength true false cs
      if (cs.take length).isEmpty then throw .emptyHost
      let host ← Host.readSpecial (cs.take length)
      readBehindHost scheme user (if host = .domain "" then none else some host)
        (cs.drop length)) := by
  unfold readWithAuthority
  rw [hscheme]
  rfl

section Authority

variable {authority : List Char} {e : Char} (he : endsAuthority true e)

include he

/-- The length of a host does not depend on what follows the authority; a colon may end it first. -/
theorem hostLength_append (hauthority : ∀ c ∈ authority, endsAuthority true c = false)
    (inBrackets : Bool) :
    ∃ k, (authority.drop k = [] ∨ ∃ rest, authority.drop k = ':' :: rest) ∧ k ≤ authority.length ∧
      ∀ more, hostLength true inBrackets (authority ++ e :: more) = k := by
  induction authority generalizing inBrackets with
  | nil =>
    refine ⟨0, .inl rfl, Nat.le_refl 0, fun more ↦ ?_⟩
    simp [hostLength, he]
  | cons c cs ih =>
    obtain ⟨hc, hcs⟩ := List.forall_mem_cons.1 hauthority
    by_cases hcolon : (c == ':' && !inBrackets) = true
    · have hc' : c = ':' := by simpa using (Bool.and_eq_true_iff.1 hcolon).1
      refine ⟨0, .inr ⟨cs, by rw [hc']; rfl⟩, Nat.zero_le _, fun more ↦ ?_⟩
      simp only [List.cons_append, hostLength, hcolon, Bool.true_or, if_true]
    · obtain ⟨k, hend, hk, hlength⟩ :=
        ih hcs (if c = '[' then true else if c = ']' then false else inBrackets)
      refine ⟨k + 1, hend, Nat.succ_le_succ hk, fun more ↦ ?_⟩
      simp only [List.cons_append, hostLength, hcolon, hc, Bool.or_self, Bool.false_eq_true,
        if_false, hlength]

variable (hauthority : ∀ c ∈ authority, endsAuthority true c = false)

include hauthority

theorem readUser_append :
    ∃ r : Except UrlFault ((String × Option String) × List Char),
      (∀ user rest, r = .ok (user, rest) → rest ⊆ authority) ∧
      ∀ more, readUser true (authority ++ e :: more) =
        r.map fun (user, rest) ↦ (user, rest ++ e :: more) := by
  have htake (more : List Char) :
      (authority ++ e :: more).takeWhile (!endsAuthority true ·) = authority := by
    rw [List.takeWhile_append_of_pos fun c hc ↦ by simp [hauthority c hc]]
    simp [he]
  unfold readUser
  simp only [htake]
  cases hsplit : splitLastAt? authority with
  | none => exact ⟨.ok (("", none), authority), by simp, fun more ↦ rfl⟩
  | some found =>
    obtain ⟨user, after⟩ := found
    have hdrop (more : List Char) : (authority ++ e :: more).drop (user.length + 1) =
        authority.drop (user.length + 1) ++ e :: more :=
      List.drop_append_of_le_length (length_of_splitLastAt? hsplit)
    have hsubset := List.drop_subset (user.length + 1) authority
    simp only [hdrop]
    cases user with
    | cons u us =>
      refine ⟨.ok (readUserinfo (u :: us), _), fun _ _ h ↦ ?_, fun more ↦ rfl⟩
      cases h
      exact hsubset
    | nil =>
      generalize authority.drop (([] : List Char).length + 1) = rest at hsubset
      cases rest with
      | nil => exact ⟨.error .emptyHost, by simp, fun more ↦ by simp [he, Except.map]⟩
      | cons c cs =>
        have hc := hauthority c (hsubset List.mem_cons_self)
        exact ⟨.ok (("", none), c :: cs), by simp [hsubset], fun more ↦ by simp [hc, Except.map]⟩

theorem readPort_append (defaultPort : Option Nat) :
    ∃ r : Except UrlFault (Option Nat), ∀ more,
      readPort defaultPort (authority ++ e :: more) = r.map fun port ↦ (port, e :: more) := by
  have hdigit : e.isDigit = false := by
    simp only [endsAuthority, isSlash, isPathEnd, Bool.or_eq_true, Bool.true_and, beq_iff_eq] at he
    rcases he with (rfl | rfl) | (rfl | rfl) <;> rfl
  unfold readPort
  simp only [takeWhile_append_cons hdigit, dropWhile_append_cons hdigit]
  split
  · exact ⟨.error .invalidPort, fun more ↦ rfl⟩
  · cases hrest : authority.dropWhile Char.isDigit with
    | nil => exact ⟨.ok _, fun more ↦ by simp only [List.nil_append, he, if_true]; rfl⟩
    | cons c cs =>
      have hc : c ∈ authority := List.dropWhile_subset Char.isDigit (by simp [hrest])
      exact ⟨.error .invalidPort, fun more ↦ by simp [hauthority c hc, Except.map]⟩

theorem readBehindHost_append (hend : authority = [] ∨ ∃ text, authority = ':' :: text)
    (scheme : String) (user : String × Option String) (host : Option Host) :
    ∃ r : Except UrlFault Url, ∀ more,
      readBehindHost scheme user host (authority ++ e :: more) =
        r.map (·.followedBy (e :: more)) := by
  unfold readBehindHost
  simp only [bind, Except.bind]
  rcases hend with rfl | ⟨text, rfl⟩
  · -- The host goes up to the end of the authority, where no colon stands: there is no port.
    have hcolon : e ≠ ':' := by
      rintro rfl
      exact absurd he (by decide)
    have hhead : (some e == some ':') = false := by simpa using hcolon
    simp only [List.nil_append, List.head?_cons, hhead, Bool.and_false, if_false,
      Bool.false_eq_true, List.cons.injEq, hcolon, false_and, imp_self, implies_true]
    by_cases hanonymous : (host.isNone && !(user.1.isEmpty && user.2.isNone)) = true
    · exact ⟨.error .emptyHost, fun more ↦ by simp only [hanonymous, if_true]; rfl⟩
    · exact ⟨.ok ⟨scheme, user.1, user.2, host, true, none, "", none, none⟩,
        fun more ↦ by simp only [hanonymous]; rfl⟩
  · simp only [List.cons_append, List.head?_cons]
    by_cases hnone : host.isNone
    · exact ⟨.error .emptyHost, fun more ↦ by simp [hnone]; rfl⟩
    obtain ⟨port, hport⟩ :=
      readPort_append he (List.forall_mem_cons.1 hauthority).2 (defaultPort? scheme)
    simp only [hnone, hport, Bool.false_and, if_false, Bool.false_eq_true]
    cases port with
    | error fault => exact ⟨.error fault, fun more ↦ rfl⟩
    | ok port =>
      exact ⟨.ok ⟨scheme, user.1, user.2, host, true, port, "", none, none⟩, fun more ↦ rfl⟩

/-- What follows the authority of a URL with a special scheme settles its path, its query and its
fragment, and nothing else. -/
theorem readWithAuthority_append {scheme : String} (hscheme : isSpecial scheme) :
    ∃ r : Except UrlFault Url, ∀ more,
      readWithAuthority scheme (authority ++ e :: more) = r.map (·.followedBy (e :: more)) := by
  obtain ⟨user, hsubset, huser⟩ := readUser_append he hauthority
  simp only [readWithAuthority_eq hscheme, huser]
  cases user with
  | error fault => exact ⟨.error fault, fun more ↦ rfl⟩
  | ok found =>
    obtain ⟨user, rest⟩ := found
    have hrest : ∀ c ∈ rest, endsAuthority true c = false :=
      fun c hc ↦ hauthority c (hsubset _ _ rfl hc)
    obtain ⟨k, hend, hk, hlength⟩ := hostLength_append he hrest false
    have htake (more : List Char) : (rest ++ e :: more).take k = rest.take k :=
      List.take_append_of_le_length hk
    have hdrop (more : List Char) : (rest ++ e :: more).drop k = rest.drop k ++ e :: more :=
      List.drop_append_of_le_length hk
    simp only [Except.map, bind, Except.bind, hlength, htake, hdrop]
    by_cases hempty : (rest.take k).isEmpty
    · exact ⟨.error .emptyHost, fun more ↦ by simp only [hempty, if_true]; rfl⟩
    simp only [hempty, Bool.false_eq_true, if_false]
    cases Host.readSpecial (rest.take k) with
    | error fault => exact ⟨.error fault, fun more ↦ rfl⟩
    | ok host =>
      exact readBehindHost_append he (fun c hc ↦ hrest c (List.drop_subset k rest hc)) hend _ _ _

end Authority

def isHttp (scheme : String) : Bool := scheme == "http" || scheme == "https"

def behindAuthority (rest : List Char) : List Char :=
  (rest.dropWhile (isSlash true)).dropWhile (!endsAuthority true ·)

/-- Where the front of an HTTP URL goes beyond its authority, more text only counts there. -/
theorem read_append {front rest : List Char} {scheme : String}
    (hscheme : readScheme? front = some (scheme, rest)) (hhttp : isHttp scheme)
    (hbehind : behindAuthority rest ≠ []) :
    ∃ r : Except UrlFault Url, ∀ text more, strip text.toList = front ++ more →
      read text = r.map (·.followedBy (behindAuthority rest ++ more)) := by
  obtain ⟨e, lead, hlead⟩ := List.exists_cons_of_ne_nil hbehind
  have he : endsAuthority true e := by
    have hnot := List.head?_dropWhile_not (!endsAuthority true ·) (rest.dropWhile (isSlash true))
    rw [← behindAuthority, hlead] at hnot
    simpa using hnot
  have hsplit := List.takeWhile_append_dropWhile (p := (!endsAuthority true ·))
    (l := rest.dropWhile (isSlash true))
  rw [← behindAuthority, hlead] at hsplit
  have hauthority : ∀ c ∈ (rest.dropWhile (isSlash true)).takeWhile (!endsAuthority true ·),
      endsAuthority true c = false := fun c hc ↦ by simpa using List.mem_takeWhile_imp hc
  have hscheme' : isSpecial scheme ∧ scheme ≠ "file" := by
    simp only [isHttp, Bool.or_eq_true, beq_iff_eq] at hhttp
    rcases hhttp with rfl | rfl <;> decide
  obtain ⟨r, hr⟩ := readWithAuthority_append he hauthority hscheme'.1
  refine ⟨r, fun text more htext ↦ ?_⟩
  have hslashes : (rest ++ more).dropWhile (isSlash true) =
      rest.dropWhile (isSlash true) ++ more := by
    cases hrest : rest.dropWhile (isSlash true) with
    | nil => simp [behindAuthority, hrest] at hlead
    | cons c cs => exact (span_append hrest more).1
  rw [read, htext, readScheme?_append hscheme]
  simp only [hscheme'.1, hscheme'.2, if_true, if_false]
  rw [hslashes, ← hsplit, List.append_assoc, List.cons_append, hr, hlead, List.cons_append]

theorem scheme_of_readWithAuthority {scheme : String} {cs : List Char} {u : Url}
    (h : readWithAuthority scheme cs = .ok u) : u.scheme = scheme := by
  unfold readWithAuthority at h
  simp only [bind, Except.bind, pure, Except.pure, throw, throwThe, MonadExceptOf.throw] at h
  repeat' split at h
  all_goals cases h
  all_goals rfl

theorem scheme_of_readFile {cs : List Char} {u : Url} (h : readFile cs = .ok u) :
    u.scheme = "file" := by
  unfold readFile at h
  simp only [bind, Except.bind, pure, Except.pure] at h
  repeat' split at h
  all_goals cases h
  all_goals rfl

theorem exists_scheme_of_read {text : String} {u : Url} (h : read text = .ok u) :
    ∃ scheme rest, readScheme? (strip text.toList) = some (scheme, rest) := by
  rw [read] at h
  cases hscheme : readScheme? (strip text.toList) with
  | none => simp [hscheme] at h
  | some found => exact ⟨found.1, found.2, rfl⟩

theorem scheme_of_read {text : String} {rest : List Char} {scheme : String} {u : Url}
    (hscheme : readScheme? (strip text.toList) = some (scheme, rest)) (h : read text = .ok u) :
    u.scheme = scheme := by
  rw [read, hscheme] at h
  simp only at h
  split at h
  · rename_i hfile
    rw [hfile, scheme_of_readFile h]
  · split at h
    · exact scheme_of_readWithAuthority h
    · split at h
      · exact scheme_of_readWithAuthority h
      · cases h
        rfl

end Url

end PackageStaging
