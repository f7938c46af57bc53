import ServiceMesh.Proofs.Url.Form
import ServiceMesh.Url.Basic

/-!
How the address of a web resource is read. What stands in front of its path decides alone whether it
can be read and which host it leads to; the query begins at the first question mark and ends at the
first number sign, wherever these come from.
-/

namespace ServiceMesh.Url

/-! ### What reading leaves out -/

def isBlank (c : Char) : Bool := c.toNat ≤ 0x20

def isNoise (c : Char) : Bool := c = '\t' || c = '\n' || c = '\r'

def tidy (cs : List Char) : List Char :=
  ((cs.reverse.dropWhile isBlank).reverse).filter fun c => !isNoise c

theorem tidy_append {c : Char} (hc : isBlank c = false) (cs rest : List Char) :
    tidy (cs ++ c :: rest) = (cs.filter fun c => !isNoise c) ++ c :: tidy rest := by
  have hnoise : isNoise c = false := by
    by_contra h
    simp only [isNoise, Bool.not_eq_false, Bool.or_eq_true, decide_eq_true_eq] at h
    rcases h with (rfl | rfl) | rfl <;> exact absurd hc (by decide)
  have htrim : ((cs ++ c :: rest).reverse.dropWhile isBlank).reverse =
      cs ++ c :: (rest.reverse.dropWhile isBlank).reverse := by
    rw [List.reverse_append, List.reverse_cons, List.append_assoc, List.dropWhile_append]
    split
    · next hrest =>
        rw [List.isEmpty_iff] at hrest
        rw [hrest, List.singleton_append, List.dropWhile_cons_of_neg (by simp [hc])]
        simp
    · simp
  rw [tidy, htrim, List.filter_append, List.filter_cons_of_pos (by simp [hnoise]), tidy]

theorem tidy_of_forall {cs : List Char} (h : ∀ c ∈ cs, isBlank c = false) : tidy cs = cs := by
  induction cs with
  | nil => rfl
  | cons c cs ih =>
      have hcs := tidy_append (h c List.mem_cons_self) [] cs
      rw [ih fun x hx => h x (List.mem_cons_of_mem c hx)] at hcs
      exact hcs

theorem clean_eq (text : String) : clean text = tidy (text.toList.dropWhile isBlank) := by
  have hnoise : (fun c => c ≠ '\t' && c ≠ '\n' && c ≠ '\r' : Char → Bool) = fun c => !isNoise c := by
    funext c
    simp [isNoise]
  rw [clean, hnoise]
  rfl

theorem clean_http (s : String) : clean ("http://" ++ s) = "http://".toList ++ tidy s.toList := by
  have hlist : ("http://" ++ s).toList = "http:/".toList ++ '/' :: s.toList := by simp
  rw [clean_eq, hlist, List.dropWhile_append]
  exact tidy_append (by decide) _ _

/-! ### Cutting -/

section

variable {a c : Char} {cs rest : List Char}

theorem cutAt_cons_self : cutAt c (c :: cs) = ([], some cs) := by
  simp [cutAt]

theorem cutAt_cons_of_ne (h : a ≠ c) :
    cutAt c (a :: cs) = (a :: (cutAt c cs).1, (cutAt c cs).2) := by
  rw [cutAt, cutAt, List.takeWhile_cons_of_pos (by simpa using h)]
  simp only [List.length_cons, List.drop_succ_cons]
  split <;> simp_all

theorem cutAt_append_of_notMem (h : c ∉ cs) :
    cutAt c (cs ++ rest) = (cs ++ (cutAt c rest).1, (cutAt c rest).2) := by
  induction cs with
  | nil => rfl
  | cons a cs ih =>
      obtain ⟨ha, hcs⟩ : c ≠ a ∧ c ∉ cs := by simpa using h
      rw [List.cons_append, cutAt_cons_of_ne (Ne.symm ha), ih hcs]
      rfl

theorem cutAt_of_notMem (h : c ∉ cs) : cutAt c cs = (cs, none) := by
  calc cutAt c cs = cutAt c (cs ++ []) := by rw [List.append_nil]
    _ = (cs ++ (cutAt c []).1, (cutAt c []).2) := cutAt_append_of_notMem h
    _ = (cs, none) := by simp [cutAt]

/-- What follows the first occurrence does not count in front of it. -/
theorem fst_cutAt_append_of_mem (h : c ∈ cs) : (cutAt c (cs ++ rest)).1 = (cutAt c cs).1 := by
  induction cs with
  | nil => cases h
  | cons a cs ih =>
      by_cases ha : a = c
      · rw [ha, List.cons_append, cutAt_cons_self, cutAt_cons_self]
      · have hcs : c ∈ cs := (List.mem_cons.1 h).resolve_left (Ne.symm ha)
        rw [List.cons_append, cutAt_cons_of_ne ha, cutAt_cons_of_ne ha, ih hcs]

end

/-! ### Authorities -/

def authority (u : Url) : String × String × String × Option String × Option Nat :=
  (u.scheme, u.username, u.password, u.host, u.port)

/-- An address in its two parts: the authority as it is written, and the path as it will be. -/
def ofParts? (scheme : String) (written : List Char) (path : String) : Option Url :=
  let user := (splitUser written).1
  let place := splitPort false (splitUser written).2
  if user.isSome ∧ (splitUser written).2 = [] then none
  else if place.1 = [] ∧ (isWeb scheme ∨ place.2.isSome) then none
  else
    (if isWeb scheme then Host.parse? place.1 else Host.parseOpaque? place.1).bind fun host =>
      (place.2.elim (some none) (port? scheme)).bind fun port =>
        let name := (user.getD []).takeWhile (· ≠ ':')
        if host = "" ∧ user.getD [] ≠ [] then none
        else some {
          scheme
          username := Percent.encode Percent.inUser (String.ofList name)
          password := Percent.encode Percent.inUser
            (String.ofList (((user.getD []).drop name.length).drop 1))
          host := some host
          port
          path }

theorem ofAuthority?_eq (scheme : String) (cs : List Char) :
    ofAuthority? scheme cs =
      ofParts? scheme (cs.takeWhile fun c => !isSlash scheme c)
        (authorityPath scheme (cs.dropWhile fun c => !isSlash scheme c)) := by
  rw [ofAuthority?, ofParts?, drop_length_takeWhile]
  generalize cs.takeWhile (fun c => !isSlash scheme c) = written
  generalize authorityPath scheme (cs.dropWhile fun c => !isSlash scheme c) = path
  generalize splitUser written = user
  obtain ⟨user, rest⟩ := user
  dsimp only
  generalize splitPort false rest = place
  obtain ⟨host, port⟩ := place
  refine if_congr Iff.rfl rfl (if_congr Iff.rfl rfl ?_)
  by_cases hweb : isWeb scheme = true
  · rw [if_pos hweb, if_pos hweb]
    cases port with
    | none => rfl
    | some p => rfl
  · rw [if_neg hweb, if_neg hweb]
    cases port with
    | none => rfl
    | some p => rfl

/-- The path does not count for anything else. -/
theorem ofParts?_eq_map (scheme : String) (written : List Char) (path : String) :
    ofParts? scheme written path =
      (ofParts? scheme written "").map fun u => { u with path } := by
  rw [ofParts?, ofParts?]
  dsimp only
  split
  · rfl
  · split
    · rfl
    · rw [Option.map_bind]
      refine congrArg _ (funext fun host => ?_)
      dsimp only [Function.comp]
      rw [Option.map_bind]
      refine congrArg _ (funext fun port => ?_)
      dsimp only [Function.comp]
      split
      · rfl
      · rw [Option.map_some]

theorem scheme_of_ofAuthority? {scheme : String} {cs : List Char} {u : Url}
    (h : ofAuthority? scheme cs = some u) : u.scheme = scheme := by
  rw [ofAuthority?_eq, ofParts?] at h
  dsimp only at h
  split at h
  · cases h
  · split at h
    · cases h
    · obtain ⟨host, -, h⟩ := Option.bind_eq_some_iff.1 h
      obtain ⟨port, -, h⟩ := Option.bind_eq_some_iff.1 h
      split at h
      · cases h
      · obtain rfl := Option.some.inj h
        rfl

/-! ### Addresses of the web -/

theorem splitScheme_http (cs : List Char) :
    splitScheme ("http:".toList ++ cs) = some ("http", cs) := by
  simp [splitScheme]

def frontAndQuery (cs : List Char) : List Char × Option (List Char) :=
  cutAt '?' (cutAt '#' (tidy cs)).1

/-- What stands in front of a path; it decides which host the address leads to. -/
def authorityText (front : List Char) : List Char :=
  (front.dropWhile (isSlash "http")).takeWhile fun c => !isSlash "http" c

def withTail (query fragment : Option (List Char)) (u : Url) : Url :=
  { u with
    query := query.map fun q => Percent.encode Percent.inWebQuery (String.ofList q)
    fragment := fragment.map fun f => Percent.encode Percent.inFragment (String.ofList f) }

theorem parse?_http (s : String) (base : Option Url) :
    parse? ("http://" ++ s) base =
      (ofAuthority? "http" ((frontAndQuery s.toList).1.dropWhile (isSlash "http"))).map
        (withTail (frontAndQuery s.toList).2 (cutAt '#' (tidy s.toList)).2) := by
  have hcut : cutAt '#' (clean ("http://" ++ s)) =
      ("http://".toList ++ (cutAt '#' (tidy s.toList)).1, (cutAt '#' (tidy s.toList)).2) := by
    rw [clean_http, cutAt_append_of_notMem (by decide)]
  have hquery : cutAt '?' ("http://".toList ++ (cutAt '#' (tidy s.toList)).1) =
      ("http:".toList ++ '/' :: '/' :: (frontAndQuery s.toList).1, (frontAndQuery s.toList).2) := by
    rw [cutAt_append_of_notMem (by decide)]
    rfl
  have hbegins (front : List Char) :
      ¬(('/' :: '/' :: front).takeWhile (isSlash "http")).length < 2 := by
    have hslash : isSlash "http" '/' = true := rfl
    rw [List.takeWhile_cons_of_pos hslash, List.takeWhile_cons_of_pos hslash]
    simp only [List.length_cons]
    omega
  have hscheme (front : List Char) :
      ofScheme? "http" ('/' :: '/' :: front) =
        ofAuthority? "http" (front.dropWhile (isSlash "http")) := rfl
  have hbackslash : hasBackslash "http" = true := rfl
  rw [parse?, hcut]
  dsimp only
  rw [hquery]
  dsimp only
  rw [splitScheme_http]
  dsimp only [Option.bind_eq_bind, Option.pure_def]
  -- the scheme of what was read decides how the query is escaped
  cases base with
  | none =>
      dsimp only
      rw [hscheme]
      cases hu : ofAuthority? "http" ((frontAndQuery s.toList).1.dropWhile (isSlash "http")) with
      | none => rw [Option.bind_none, Option.map_none]
      | some u =>
          rw [Option.bind_some, Option.map_some, withTail, scheme_of_ofAuthority? hu,
            if_pos hbackslash]
  | some b =>
      dsimp only
      rw [if_neg fun h => hbegins _ h.2.2, hscheme]
      cases hu : ofAuthority? "http" ((frontAndQuery s.toList).1.dropWhile (isSlash "http")) with
      | none => rw [Option.bind_none, Option.map_none]
      | some u =>
          rw [Option.bind_some, Option.map_some, withTail, scheme_of_ofAuthority? hu,
            if_pos hbackslash]

/-- What stands in front of the path decides alone whether an address can be read and where it leads
to. -/
theorem authority_parse?_http (s : String) (base : Option Url) :
    (parse? ("http://" ++ s) base).map authority =
      (ofParts? "http" (authorityText (frontAndQuery s.toList).1) "").map authority := by
  rw [parse?_http, ofAuthority?_eq, ofParts?_eq_map, Option.map_map, Option.map_map,
    authorityText]
  refine congrArg (Option.map · _) (funext fun u => ?_)
  rw [Function.comp_apply, Function.comp_apply, withTail, authority, authority]

/-- A slash ends an authority, unless there was nothing but slashes before it. -/
theorem authorityText_append {front : List Char} (h : ∃ c ∈ front, isSlash "http" c = false)
    (rest : List Char) : authorityText (front ++ '/' :: rest) = authorityText front := by
  obtain ⟨c, hc, hslash⟩ := h
  have hne : front.dropWhile (isSlash "http") ≠ [] := by
    rw [ne_eq, List.dropWhile_eq_nil_iff]
    intro hall
    rw [hall c hc] at hslash
    cases hslash
  rw [authorityText, List.dropWhile_append, if_neg (by simpa using hne), List.takeWhile_append]
  split
  · next hfull =>
      rw [List.takeWhile_cons_of_neg (by decide), List.append_nil, authorityText]
      exact ((List.takeWhile_prefix _).eq_of_length hfull).symm
  · rfl

theorem exists_authorityText {cs : List Char}
    (h : ∃ c ∈ cs, isSlash "http" c = false ∧ isNoise c = false) :
    ∃ text, ∀ rest, authorityText (frontAndQuery (cs ++ '/' :: rest)).1 = text := by
  have htidy (rest : List Char) : tidy (cs ++ '/' :: rest) =
      (cs.filter fun c => !isNoise c) ++ '/' :: tidy rest := tidy_append (by decide) cs rest
  have hleft : ∃ c ∈ cs.filter fun c => !isNoise c, isSlash "http" c = false := by
    obtain ⟨c, hc, hslash, hnoise⟩ := h
    exact ⟨c, List.mem_filter.2 ⟨hc, by simp [hnoise]⟩, hslash⟩
  simp only [frontAndQuery, htidy]
  generalize (cs.filter fun c => !isNoise c) = front at hleft
  by_cases hhash : '#' ∈ front
  · exact ⟨_, fun rest => by rw [fst_cutAt_append_of_mem hhash]⟩
  · simp only [cutAt_append_of_notMem hhash]
    by_cases hquestion : '?' ∈ front
    · exact ⟨_, fun rest => by rw [fst_cutAt_append_of_mem hquestion]⟩
    · refine ⟨authorityText front, fun rest => ?_⟩
      rw [cutAt_append_of_notMem hquestion, cutAt_cons_of_ne (by decide),
        cutAt_cons_of_ne (by decide)]
      exact authorityText_append hleft _

/-- Where an address leads to does not depend on the path that is put behind it. -/
theorem authority_parse?_of_slash {address path path' : String}
    (h : ∃ c ∈ address.toList, isSlash "http" c = false ∧ isNoise c = false)
    (hpath : path.toList.head? = some '/') (hpath' : path'.toList.head? = some '/')
    (base : Option Url) :
    (parse? ("http://" ++ address ++ path) base).map authority =
      (parse? ("http://" ++ address ++ path') base).map authority := by
  obtain ⟨text, htext⟩ := exists_authorityText h
  have hread {p : String} (hp : p.toList.head? = some '/') :
      (parse? ("http://" ++ address ++ p) base).map authority =
        (ofParts? "http" text "").map authority := by
    obtain ⟨rest, hrest⟩ := List.head?_eq_some_iff.1 hp
    rw [String.append_assoc, authority_parse?_http, String.toList_append, hrest, htext]
  rw [hread hpath, hread hpath']

end ServiceMesh.Url
