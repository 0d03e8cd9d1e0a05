import Vancine.Lib.Scan

/-!
# Paths of plugin routes

A path has static segments, parameters, and maybe a catch-all or an empty segment at its end. The host keeps some
namespaces for itself.
-/

namespace Vancine.JsPlugin

open Lib

abbrev Text := List Char

/-- `^[A-Za-z_][A-Za-z0-9_]*$` -/
def isPathName : Text → Bool
  | [] => false
  | c :: rest => (c.isAlpha || c = '_') && rest.all fun c => c.isAlphanum || c = '_'

/-- `^[A-Za-z0-9._~-]+$` -/
def isStaticSegment (segment : Text) : Bool :=
  segment ≠ [] && segment.all fun c => c.isAlphanum || c = '.' || c = '_' || c = '~' || c = '-'

/-- The errors of `NormalizeRoutePath`, with what their texts quote. -/
inductive RoutePathError
  | mustStartWithSlash
  | rootReserved
  | queryFragmentOrEncoding (routePath : Text)
  | emptySegments (routePath : Text)
  | dotSegments (routePath : Text)
  | invalidParameter (routePath segment : Text)
  | invalidCatchAll (routePath : Text)
  | repeatsParameter (routePath name : Text)
  | invalidSegment (routePath segment : Text)
  deriving DecidableEq

/-- `strings.TrimPrefix` of a slash. -/
def trimSlash : Text → Text
  | '/' :: rest => rest
  | text => text

def segmentsOf (routePath : Text) : List Text := (trimSlash routePath).splitOn '/'

def checkSegments (routePath : Text) (seenNames : List Text) : List Text → Except RoutePathError Unit
  | [] => .ok ()
  | segment :: rest =>
    if segment = [] ∧ rest = [] then checkSegments routePath seenNames rest
    else if segment = ['.'] ∨ segment = ['.', '.'] then .error (.dotSegments routePath)
    else
      match segment with
      | ':' :: name =>
        if ¬isPathName name then .error (.invalidParameter routePath segment)
        else if name ∈ seenNames then .error (.repeatsParameter routePath name)
        else checkSegments routePath (name :: seenNames) rest
      | '*' :: name =>
        if rest ≠ [] ∨ ¬isPathName name then .error (.invalidCatchAll routePath)
        else if name ∈ seenNames then .error (.repeatsParameter routePath name)
        else checkSegments routePath (name :: seenNames) rest
      | _ =>
        if ¬isStaticSegment segment then .error (.invalidSegment routePath segment)
        else checkSegments routePath seenNames rest

def normalizeRoutePath (routePath : Text) : Except RoutePathError Text :=
  if routePath.head? ≠ some '/' then .error .mustStartWithSlash
  else if routePath = ['/'] then .error .rootReserved
  else if routePath.any fun c => c = '?' || c = '#' || c = '%' then .error (.queryFragmentOrEncoding routePath)
  else if ['/', '/'] <:+: routePath then .error (.emptySegments routePath)
  else
    match checkSegments routePath [] (segmentsOf routePath) with
    | .error e => .error e
    | .ok () => .ok routePath

def shapeSegment : Text → Text
  | ':' :: _ => [':']
  | '*' :: _ => ['*']
  | segment => segment

def routePathShape (routePath : Text) : Except RoutePathError Text :=
  match normalizeRoutePath routePath with
  | .error e => .error e
  | .ok normalized => .ok ('/' :: ['/'].intercalate ((segmentsOf normalized).map shapeSegment))

def reservedRouteNamespaces : List Text :=
  ["/api", "/assets", "/setup", "/v1/tasks", "/console", "/login", "/forbidden", "/sign-in", "/sign-up",
    "/forgot-password", "/oauth", "/otp", "/register", "/reset", "/privacy-policy", "/user-agreement", "/about",
    "/pricing", "/rankings", "/user", "/401", "/403", "/404", "/500", "/503", "/chat2link", "/system-settings",
    "/channels", "/chat", "/dashboard", "/errors", "/keys", "/models", "/playground", "/profile", "/redemption-codes",
    "/subscriptions", "/system-info", "/task-plugins", "/usage-logs", "/users", "/wallet"].map String.toList

/-- The loop over the segments of a namespace and of a route. -/
def intersects : List Text → List Text → Bool
  | [], _ => true
  | _ :: _, [] => false
  | namespaceSegment :: ns, routeSegment :: rs =>
    if routeSegment.head? = some '*' then true
    else if routeSegment.head? ≠ some ':' ∧ routeSegment ≠ namespaceSegment then false
    else intersects ns rs

def routePatternIntersectsNamespace (routePath ns : Text) : Bool :=
  intersects (segmentsOf ns) ((trimBy (· = '/') (trimSlash routePath)).splitOn '/')

def intersectingReservedNamespace (routePath : Text) : Option Text :=
  reservedRouteNamespaces.find? fun ns => routePatternIntersectsNamespace routePath ns

/-! ## What a path matches -/

/-- A parameter matches one segment that is not empty, a catch-all all that is left, and any other segment itself. -/
def MatchesSegments : List Text → List Text → Prop
  | [], concrete => concrete = []
  | segment :: rest, concrete =>
    if segment.head? = some '*' then concrete ≠ []
    else
      match concrete with
      | [] => False
      | first :: concrete =>
        (if segment.head? = some ':' then first ≠ [] else first = segment) ∧ MatchesSegments rest concrete

/-- The concrete path is one of the route's. -/
def Matches (routePath concrete : Text) : Prop :=
  ∃ rest, concrete = '/' :: rest ∧ MatchesSegments (segmentsOf routePath) (rest.splitOn '/')

/-- Equal to the namespace, or under it. -/
def Within (concrete ns : Text) : Prop := concrete = ns ∨ ns ++ ['/'] <+: concrete

/-! ## Segments -/

theorem slash_not_mem_splitOn {l s : Text} (hs : s ∈ l.splitOn '/') : '/' ∉ s := not_mem_of_mem_splitOn hs

theorem intercalate_append {a b : List Text} (ha : a ≠ []) (hb : b ≠ []) :
    ['/'].intercalate (a ++ b) = ['/'].intercalate a ++ '/' :: ['/'].intercalate b := by
  induction a with
  | nil => exact absurd rfl ha
  | cons s a ih =>
    cases a with
    | nil =>
      obtain ⟨t, b, rfl⟩ := List.exists_cons_of_ne_nil hb
      rw [List.singleton_append, List.intercalate_cons_cons, List.intercalate_singleton]
      simp
    | cons t a =>
      rw [List.cons_append, List.cons_append, List.intercalate_cons_cons, List.intercalate_cons_cons,
        ← List.cons_append, ih (List.cons_ne_nil t a)]
      simp

/-- A path within a namespace has the segments of the namespace first. -/
theorem within_iff {ns rest : Text} : Within ('/' :: rest) ('/' :: ns) ↔ ns.splitOn '/' <+: rest.splitOn '/' := by
  constructor
  · rintro (heq | ⟨more, hmore⟩)
    · rw [(List.cons.inj heq).2]
    · refine ⟨more.splitOn '/', ?_⟩
      have hrest : rest = ns ++ '/' :: more := by simpa using hmore.symm
      rw [hrest, List.splitOn_append_cons_self]
  · rintro ⟨more, hmore⟩
    have hrest : ['/'].intercalate (ns.splitOn '/' ++ more) = rest := by rw [hmore, List.intercalate_splitOn]
    by_cases hnil : more = []
    · rw [hnil, List.append_nil, List.intercalate_splitOn] at hrest
      exact .inl (congrArg (List.cons '/') hrest.symm)
    · rw [intercalate_append (List.splitOn_ne_nil _ _) hnil, List.intercalate_splitOn] at hrest
      refine .inr ⟨['/'].intercalate more, ?_⟩
      rw [← hrest]
      simp

/-- The segments of an accepted path. -/
def WellFormed : List Text → Prop
  | [] => True
  | segment :: rest =>
    (isStaticSegment segment = true ∨ segment.head? = some ':' ∨
      rest = [] ∧ (segment = [] ∨ segment.head? = some '*')) ∧ WellFormed rest

variable {routePath : Text} {segment : Text} {segments : List Text}

theorem wellFormed_of_checkSegments {seenNames segments : List Text}
    (h : checkSegments routePath seenNames segments = .ok ()) : WellFormed segments := by
  induction segments generalizing seenNames with
  | nil => trivial
  | cons segment rest ih =>
    unfold checkSegments at h
    by_cases hlast : segment = [] ∧ rest = []
    · rw [if_pos hlast] at h
      exact ⟨.inr (.inr ⟨hlast.2, .inl hlast.1⟩), ih h⟩
    · rw [if_neg hlast] at h
      by_cases hdot : segment = ['.'] ∨ segment = ['.', '.']
      · rw [if_pos hdot] at h
        cases h
      · rw [if_neg hdot] at h
        split at h
        · split_ifs at h
          exact ⟨.inr (.inl rfl), ih h⟩
        · split_ifs at h with hrest
          push Not at hrest
          exact ⟨.inr (.inr ⟨hrest.1, .inr rfl⟩), ih h⟩
        · split_ifs at h with hstatic
          exact ⟨.inl hstatic, ih h⟩

theorem not_special_of_static (h : isStaticSegment segment = true) :
    segment ≠ [] ∧ segment.head? ≠ some ':' ∧ segment.head? ≠ some '*' := by
  cases segment with
  | nil => cases h
  | cons c rest =>
    unfold isStaticSegment at h
    simp only [List.all_cons, Bool.and_eq_true] at h
    refine ⟨List.cons_ne_nil _ _, ?_, ?_⟩
    all_goals
      rintro hc
      obtain rfl := Option.some.inj hc
      exact absurd h.2.1 (by decide)

/-- What an accepted path is. -/
structure Accepted (routePath : Text) : Prop where
  start : ∃ rest, routePath = '/' :: rest ∧ rest ≠ []
  noEmpty : ¬['/', '/'] <:+: routePath
  wellFormed : WellFormed (segmentsOf routePath)

theorem accepted_of_normalize {routePath path : Text} (h : normalizeRoutePath routePath = .ok path) :
    path = routePath ∧ Accepted routePath := by
  unfold normalizeRoutePath at h
  split_ifs at h with hstart hroot hany hempty
  rw [not_not] at hstart
  cases hcheck : checkSegments routePath [] (segmentsOf routePath) with
  | error e =>
    rw [hcheck] at h
    cases h
  | ok u =>
    rw [hcheck] at h
    cases h
    obtain ⟨rest, rfl⟩ := List.head?_eq_some_iff.mp hstart
    exact ⟨rfl, ⟨rest, rfl, fun hnil => hroot (hnil ▸ rfl)⟩, hempty, wellFormed_of_checkSegments hcheck⟩

/-! ## Namespaces -/

theorem exists_matches (h : WellFormed segments) (hslash : ∀ s ∈ segments, '/' ∉ s) :
    ∃ concrete, MatchesSegments segments concrete ∧ ∀ s ∈ concrete, '/' ∉ s := by
  induction segments with
  | nil => exact ⟨[], rfl, nofun⟩
  | cons segment rest ih =>
    obtain ⟨concrete, hmatches, hplain⟩ := ih h.2 fun s hs => hslash s (List.mem_cons_of_mem _ hs)
    by_cases hstar : segment.head? = some '*'
    · exact ⟨[[]], by simp [MatchesSegments, hstar], by simp⟩
    · by_cases hcolon : segment.head? = some ':'
      · exact ⟨['x'] :: concrete, by simp [MatchesSegments, hcolon, hmatches], by simpa using hplain⟩
      · refine ⟨segment :: concrete, by simp [MatchesSegments, hstar, hcolon, hmatches], fun s hs => ?_⟩
        rcases List.mem_cons.mp hs with rfl | hs
        · exact hslash _ List.mem_cons_self
        · exact hplain s hs

/-- The loop finds a namespace just when a path that is matched has the segments of the namespace first. -/
theorem intersects_iff {ns segments : List Text} (h : WellFormed segments) (hslash : ∀ s ∈ segments, '/' ∉ s)
    (hns : ∀ s ∈ ns, s ≠ [] ∧ '/' ∉ s) : intersects ns (segments.filter (· ≠ [])) = true ↔
      ∃ concrete, MatchesSegments segments concrete ∧ (∀ s ∈ concrete, '/' ∉ s) ∧ ns <+: concrete := by
  induction ns generalizing segments with
  | nil =>
    refine iff_of_true (by unfold intersects; rfl) ?_
    obtain ⟨concrete, hmatches, hplain⟩ := exists_matches h hslash
    exact ⟨concrete, hmatches, hplain, List.nil_prefix⟩
  | cons first ns ih =>
    have hfirst := hns first List.mem_cons_self
    cases segments with
    | nil =>
      refine iff_of_false (by simp [intersects]) ?_
      rintro ⟨concrete, rfl, -, hprefix⟩
      exact absurd (List.prefix_nil.mp hprefix) (List.cons_ne_nil _ _)
    | cons segment rest =>
      by_cases hempty : segment = []
      · subst hempty
        have hrest : rest = [] := by
          rcases h.1 with hstatic | hcolon | hlast
          · cases hstatic
          · cases hcolon
          · exact hlast.1
        subst hrest
        refine iff_of_false (by simp [intersects]) ?_
        rintro ⟨concrete, hmatches, -, more, rfl⟩
        simp [MatchesSegments, hfirst.1] at hmatches
      · rw [List.filter_cons_of_pos (by simpa using hempty)]
        unfold intersects MatchesSegments
        by_cases hstar : segment.head? = some '*'
        · simp only [if_pos hstar, true_iff]
          exact ⟨first :: ns, List.cons_ne_nil _ _, fun s hs => (hns s hs).2, List.prefix_rfl⟩
        · have hrest := ih h.2 (fun s hs => hslash s (List.mem_cons_of_mem _ hs))
            fun s hs => hns s (List.mem_cons_of_mem _ hs)
          simp only [if_neg hstar]
          constructor
          · intro hloop
            split_ifs at hloop with hother
            obtain ⟨concrete, hmatches, hplain, hprefix⟩ := hrest.mp hloop
            refine ⟨first :: concrete, ⟨?_, hmatches⟩, fun s hs => ?_, List.cons_prefix_cons.mpr ⟨rfl, hprefix⟩⟩
            · split_ifs with hcolon
              · exact hfirst.1
              · by_contra hne
                exact hother ⟨hcolon, fun he => hne he.symm⟩
            · rcases List.mem_cons.mp hs with rfl | hs
              · exact hfirst.2
              · exact hplain s hs
          · rintro ⟨concrete, hmatches, hplain, hprefix⟩
            cases concrete with
            | nil => exact hmatches.elim
            | cons matched concrete =>
              obtain ⟨rfl, hlater⟩ := List.cons_prefix_cons.mp hprefix
              rw [if_neg]
              · exact hrest.mpr ⟨concrete, hmatches.2, fun s hs => hplain s (List.mem_cons_of_mem _ hs), hlater⟩
              · rintro ⟨hcolon, hne⟩
                have hsame := hmatches.1
                rw [if_neg hcolon] at hsame
                exact hne hsame.symm

theorem getLast?_intercalate {l : List Text} {last : Text} (hlast : last ≠ []) :
    (['/'].intercalate (l ++ [last])).getLast? = last.getLast? := by
  by_cases hnil : l = []
  · rw [hnil, List.nil_append, List.intercalate_singleton]
  · obtain ⟨init, c, rfl⟩ := (List.eq_nil_or_concat last).resolve_left hlast
    rw [intercalate_append hnil (List.cons_ne_nil _ _), List.intercalate_singleton, List.concat_eq_append,
      List.getLast?_append, ← List.cons_append, List.getLast?_concat, List.getLast?_concat]
    rfl

/-- Segments that are not empty, joined, have no slash at an end. -/
theorem tight_intercalate {l : List Text} (hl : ∀ s ∈ l, s ≠ [] ∧ '/' ∉ s) :
    Tight (fun c => decide (c = '/')) (['/'].intercalate l) where
  left := by
    cases l with
    | nil => exact stops_nil
    | cons s l =>
      obtain ⟨hne, hslash⟩ := hl s List.mem_cons_self
      obtain ⟨c, s, rfl⟩ := List.exists_cons_of_ne_nil hne
      have hc : c ≠ '/' := fun he => hslash (he ▸ List.mem_cons_self)
      cases l with
      | nil => exact stops_cons.mpr (decide_eq_false hc)
      | cons t l =>
        rw [List.intercalate_cons_cons]
        exact stops_cons.mpr (decide_eq_false hc)
  right := by
    intro c hc
    rw [Option.mem_def, List.head?_reverse] at hc
    by_cases hnil : l = []
    · rw [hnil] at hc
      cases hc
    · obtain ⟨init, last, rfl⟩ := (List.eq_nil_or_concat l).resolve_left hnil
      obtain ⟨hne, hslash⟩ := hl last (by simp)
      rw [List.concat_eq_append, getLast?_intercalate hne] at hc
      have hmem : c ∈ last := List.mem_of_getLast? hc
      exact decide_eq_false fun he => hslash (he ▸ hmem)

/-- Without the slashes at its ends a path has the segments that are not empty. -/
theorem splitOn_trimBy {rest : Text} (hne : rest ≠ []) (h : WellFormed (rest.splitOn '/')) :
    (trimBy (fun c => decide (c = '/')) rest).splitOn '/' = (rest.splitOn '/').filter (· ≠ []) := by
  have hslash : ∀ s ∈ rest.splitOn '/', '/' ∉ s := fun s hs => slash_not_mem_splitOn hs
  obtain ⟨init, last, hsplit⟩ := (List.eq_nil_or_concat (rest.splitOn '/')).resolve_left (List.splitOn_ne_nil _ _)
  rw [List.concat_eq_append] at hsplit
  have hinit : ∀ s ∈ init, s ≠ [] ∧ '/' ∉ s := by
    intro s hs
    refine ⟨?_, hslash s (hsplit ▸ List.mem_append_left _ hs)⟩
    rintro rfl
    obtain ⟨before, after, rfl⟩ := List.append_of_mem hs
    have hwell : WellFormed (before ++ ([] :: (after ++ [last]))) := by
      rw [hsplit] at h
      simpa using h
    clear hsplit h hs
    induction before with
    | nil =>
      rcases hwell.1 with hstatic | hcolon | ⟨hnil, -⟩
      · cases hstatic
      · cases hcolon
      · simp at hnil
    | cons s before ih => exact ih hwell.2
  have hrest : ['/'].intercalate (init ++ [last]) = rest := by rw [← hsplit, List.intercalate_splitOn]
  have hfilter : init.filter (· ≠ []) = init := List.filter_eq_self.mpr fun s hs => by simpa using (hinit s hs).1
  rw [hsplit, List.filter_append, hfilter]
  by_cases hlast : last = []
  · subst hlast
    have hinit_ne : init ≠ [] := by
      rintro rfl
      exact hne hrest.symm
    rw [intercalate_append hinit_ne (List.cons_ne_nil _ _), List.intercalate_singleton] at hrest
    have htrim := trimBy_pad (p := fun c => decide (c = '/')) (s := []) (t := ['/']) nofun (tight_intercalate hinit)
      (by simp)
    rw [List.nil_append, hrest] at htrim
    rw [htrim, List.splitOn_intercalate _ (fun s hs => (hinit s hs).2) hinit_ne]
    simp
  · have hall : ∀ s ∈ init ++ [last], s ≠ [] ∧ '/' ∉ s := by
      intro s hs
      rcases List.mem_append.mp hs with hs | hs
      · exact hinit s hs
      · rw [List.mem_singleton.mp hs]
        exact ⟨hlast, hslash last (by rw [hsplit]; simp)⟩
    have htrim := trimBy_eq_self (tight_intercalate hall)
    rw [hrest] at htrim
    rw [htrim, hsplit]
    simp [hlast]

theorem segmentsOf_ne_nil (routePath : Text) : segmentsOf routePath ≠ [] := List.splitOn_ne_nil _ _

theorem slash_not_mem_segments : ∀ s ∈ segmentsOf routePath, '/' ∉ s :=
  fun _ hs => slash_not_mem_splitOn hs

theorem not_matchesSegments_nil {rest : List Text} : ¬MatchesSegments (segment :: rest) [] := by
  unfold MatchesSegments
  by_cases hstar : segment.head? = some '*'
  · rw [if_pos hstar]
    exact fun h => h rfl
  · rw [if_neg hstar]
    exact id

theorem matches_of_segments {concrete : List Text} (h : MatchesSegments (segmentsOf routePath) concrete)
    (hplain : ∀ s ∈ concrete, '/' ∉ s) : Matches routePath ('/' :: ['/'].intercalate concrete) := by
  refine ⟨_, rfl, ?_⟩
  rw [List.splitOn_intercalate _ hplain]
  · exact h
  · rintro rfl
    obtain ⟨segment, rest, hsegments⟩ := List.exists_cons_of_ne_nil (segmentsOf_ne_nil routePath)
    rw [hsegments] at h
    exact not_matchesSegments_nil h

/-- The namespaces start with a slash and have no empty segment. -/
theorem reserved_segments : ∀ ns ∈ reservedRouteNamespaces, ns = '/' :: trimSlash ns ∧ ∀ s ∈ segmentsOf ns, s ≠ [] := by
  simp only [reservedRouteNamespaces, List.map_cons, List.map_nil, String.reduceToList]
  decide

theorem intersectsNamespace_iff {routePath ns : Text} (h : Accepted routePath) (hns : ns ∈ reservedRouteNamespaces) :
    routePatternIntersectsNamespace routePath ns = true ↔
      ∃ concrete, Matches routePath concrete ∧ Within concrete ns := by
  obtain ⟨hstart, hsegments⟩ := reserved_segments ns hns
  obtain ⟨rest, hrest, hne⟩ := h.start
  have hpath : segmentsOf routePath = rest.splitOn '/' := by rw [hrest]; rfl
  have hwell := h.wellFormed
  rw [hpath] at hwell
  unfold routePatternIntersectsNamespace
  rw [hrest, show trimSlash ('/' :: rest) = rest from rfl, splitOn_trimBy hne hwell,
    intersects_iff hwell (fun s hs => slash_not_mem_splitOn hs) fun s hs => ⟨hsegments s hs, slash_not_mem_splitOn hs⟩]
  rw [← hrest]
  constructor
  · rintro ⟨concrete, hmatches, hplain, hprefix⟩
    have hmatched := matches_of_segments (hpath ▸ hmatches) hplain
    refine ⟨_, hmatched, ?_⟩
    have hnil : concrete ≠ [] := by
      rintro rfl
      exact List.splitOn_ne_nil _ _ (List.prefix_nil.mp hprefix)
    rw [hstart, within_iff, List.splitOn_intercalate _ hplain hnil]
    exact hprefix
  · rintro ⟨concrete, ⟨tail, rfl, hmatches⟩, hwithin⟩
    rw [hstart, within_iff] at hwithin
    exact ⟨tail.splitOn '/', hpath ▸ hmatches, fun s hs => slash_not_mem_splitOn hs, hwithin⟩

/-! ## Shapes -/

theorem matchesSegments_shape (segments concrete : List Text) :
    MatchesSegments (segments.map shapeSegment) concrete ↔ MatchesSegments segments concrete := by
  induction segments generalizing concrete with
  | nil => rfl
  | cons segment rest ih =>
    have hhead : (shapeSegment segment).head? = segment.head? := by
      unfold shapeSegment
      split <;> rfl
    have hself : segment.head? ≠ some ':' → segment.head? ≠ some '*' → shapeSegment segment = segment := by
      unfold shapeSegment
      split
      · exact fun hcolon _ => absurd rfl hcolon
      · exact fun _ hstar => absurd rfl hstar
      · exact fun _ _ => rfl
    rw [List.map_cons]
    unfold MatchesSegments
    rw [hhead]
    by_cases hstar : segment.head? = some '*'
    · simp only [if_pos hstar]
    · simp only [if_neg hstar]
      cases concrete with
      | nil => rfl
      | cons first concrete =>
        by_cases hcolon : segment.head? = some ':'
        · simp only [if_pos hcolon, ih]
        · simp only [if_neg hcolon, ih, hself hcolon hstar]

theorem shapeSegment_of_head {c : Char} (hc : c = ':' ∨ c = '*') (h : segment.head? = some c) :
    shapeSegment segment = [c] := by
  obtain ⟨rest, rfl⟩ := List.head?_eq_some_iff.mp h
  rcases hc with rfl | rfl <;> rfl

section

variable {p q : Text} {ps qs : List Text}

theorem longer_slash {s : Text} (h : '/' ∉ q) (hs : s = q ++ ['x']) : '/' ∉ s := by simpa [hs] using h

theorem star_of_matches (hslash : '/' ∉ q)
    (h : ∀ concrete, concrete ≠ [] → (∀ s ∈ concrete, '/' ∉ s) → MatchesSegments (q :: qs) concrete) :
    q.head? = some '*' := by
  by_contra hstar
  by_cases hcolon : q.head? = some ':'
  · have hempty := h [[]] (List.cons_ne_nil _ _) (by simp)
    simp [MatchesSegments, hcolon] at hempty
  · have hlonger := h [q ++ ['x']] (List.cons_ne_nil _ _) (by simpa using hslash)
    simp [MatchesSegments, hstar, hcolon] at hlonger

theorem colon_of_matches (hps : WellFormed ps) (hslash : '/' ∉ q) (hslashes : ∀ s ∈ ps, '/' ∉ s)
    (hcolon : p.head? = some ':') (hstar : q.head? ≠ some '*')
    (h : ∀ concrete, (∀ s ∈ concrete, '/' ∉ s) → MatchesSegments (p :: ps) concrete →
      MatchesSegments (q :: qs) concrete) : q.head? = some ':' := by
  by_contra hother
  obtain ⟨concrete, hmatches, hplain⟩ := exists_matches hps hslashes
  have hlonger := h ((q ++ ['x']) :: concrete)
    (List.forall_mem_cons.mpr ⟨longer_slash hslash rfl, hplain⟩) (by simp [MatchesSegments, hcolon, hmatches])
  simp [MatchesSegments, hstar, hother] at hlonger

theorem rest_eq_nil_of_star (h : WellFormed (p :: ps)) (hstar : p.head? = some '*') : ps = [] := by
  rcases h.1 with hstatic | hcolon | hlast
  · exact absurd hstar (not_special_of_static hstatic).2.2
  · exact absurd (hcolon.symm.trans hstar) (by decide)
  · exact hlast.1

end

/-- Lists of segments that match the same have the same shape. -/
theorem shape_eq_of_matches {p q : List Text} (hp : WellFormed p) (hq : WellFormed q)
    (hslash : ∀ s ∈ p, '/' ∉ s) (hslash' : ∀ s ∈ q, '/' ∉ s)
    (h : ∀ concrete, (∀ s ∈ concrete, '/' ∉ s) → (MatchesSegments p concrete ↔ MatchesSegments q concrete)) :
    p.map shapeSegment = q.map shapeSegment := by
  induction p generalizing q with
  | nil =>
    cases q with
    | nil => rfl
    | cons s q => exact absurd ((h [] nofun).mp rfl) not_matchesSegments_nil
  | cons s p ih =>
    cases q with
    | nil => exact absurd ((h [] nofun).mpr rfl) not_matchesSegments_nil
    | cons t q =>
      have hs := hslash s List.mem_cons_self
      have ht := hslash' t List.mem_cons_self
      have hps : ∀ a ∈ p, '/' ∉ a := fun a ha => hslash a (List.mem_cons_of_mem _ ha)
      have hqs : ∀ a ∈ q, '/' ∉ a := fun a ha => hslash' a (List.mem_cons_of_mem _ ha)
      have hstars : s.head? = some '*' ↔ t.head? = some '*' := by
        constructor
        · intro hstar
          refine star_of_matches ht fun concrete hne hplain => (h concrete hplain).mp ?_
          unfold MatchesSegments
          rw [if_pos hstar]
          exact hne
        · intro hstar
          refine star_of_matches hs fun concrete hne hplain => (h concrete hplain).mpr ?_
          unfold MatchesSegments
          rw [if_pos hstar]
          exact hne
      by_cases hstar : s.head? = some '*'
      · rw [rest_eq_nil_of_star hp hstar, rest_eq_nil_of_star hq (hstars.mp hstar), List.map_singleton,
          List.map_singleton, shapeSegment_of_head (.inr rfl) hstar, shapeSegment_of_head (.inr rfl) (hstars.mp hstar)]
      · have hstar' : t.head? ≠ some '*' := fun he => hstar (hstars.mpr he)
        have hcolons : s.head? = some ':' ↔ t.head? = some ':' :=
          ⟨fun hc => colon_of_matches hp.2 ht hps hc hstar' fun c hplain => (h c hplain).mp,
            fun hc => colon_of_matches hq.2 hs hqs hc hstar fun c hplain => (h c hplain).mpr⟩
        by_cases hcolon : s.head? = some ':'
        · have hcolon' := hcolons.mp hcolon
          rw [List.map_cons, List.map_cons, shapeSegment_of_head (.inl rfl) hcolon,
            shapeSegment_of_head (.inl rfl) hcolon', ih hp.2 hq.2 hps hqs fun concrete hplain => ?_]
          have hboth := h (['x'] :: concrete) (List.forall_mem_cons.mpr ⟨by decide, hplain⟩)
          simpa [MatchesSegments, hcolon, hcolon'] using hboth
        · have hcolon' : t.head? ≠ some ':' := fun he => hcolon (hcolons.mpr he)
          obtain ⟨concrete, hmatches, hplain⟩ := exists_matches hp.2 hps
          have hsame := (h (s :: concrete) (List.forall_mem_cons.mpr ⟨hs, hplain⟩)).mp
            (by simp [MatchesSegments, hstar, hcolon, hmatches])
          obtain rfl : s = t := by
            simp only [MatchesSegments, if_neg hstar', if_neg hcolon'] at hsame
            exact hsame.1
          rw [List.map_cons, List.map_cons, ih hp.2 hq.2 hps hqs fun concrete hplain => ?_]
          have hboth := h (s :: concrete) (List.forall_mem_cons.mpr ⟨hs, hplain⟩)
          simpa [MatchesSegments, hcolon, hstar] using hboth

theorem slash_not_mem_shapes (h : ∀ s ∈ segments, '/' ∉ s) : ∀ s ∈ segments.map shapeSegment, '/' ∉ s := by
  intro s hs
  obtain ⟨segment, hsegment, rfl⟩ := List.mem_map.mp hs
  unfold shapeSegment
  split
  · decide
  · decide
  · exact h segment hsegment

/-- Accepted paths have the same shape just when they match the same paths. -/
theorem routePathShape_eq_iff {p q : Text} (hp : normalizeRoutePath p = .ok p) (hq : normalizeRoutePath q = .ok q) :
    routePathShape p = routePathShape q ↔ ∀ concrete, Matches p concrete ↔ Matches q concrete := by
  have hshapes : routePathShape p = routePathShape q ↔
      (segmentsOf p).map shapeSegment = (segmentsOf q).map shapeSegment := by
    unfold routePathShape
    rw [hp, hq]
    constructor
    · intro h
      have hjoined := (List.cons.inj (Except.ok.inj h)).2
      rw [← List.splitOn_intercalate '/' (slash_not_mem_shapes slash_not_mem_segments)
          (mt List.map_eq_nil_iff.mp (segmentsOf_ne_nil _)),
        hjoined, List.splitOn_intercalate '/' (slash_not_mem_shapes slash_not_mem_segments)
          (mt List.map_eq_nil_iff.mp (segmentsOf_ne_nil _))]
    · intro h
      dsimp only
      rw [h]
  rw [hshapes]
  constructor
  · intro h concrete
    unfold Matches
    refine exists_congr fun rest => and_congr_right fun _ => ?_
    rw [← matchesSegments_shape, h, matchesSegments_shape]
  · intro h
    refine shape_eq_of_matches (accepted_of_normalize hp).2.wellFormed (accepted_of_normalize hq).2.wellFormed
      slash_not_mem_segments slash_not_mem_segments fun concrete hplain => ?_
    have hback : ∀ {path : Text}, Matches path ('/' :: ['/'].intercalate concrete) → concrete ≠ [] →
        MatchesSegments (segmentsOf path) concrete := by
      rintro path ⟨rest, hrest, hmatches⟩ hne
      rwa [← (List.cons.inj hrest).2, List.splitOn_intercalate _ hplain hne] at hmatches
    by_cases hne : concrete = []
    · subst hne
      obtain ⟨s, ps, hps⟩ := List.exists_cons_of_ne_nil (segmentsOf_ne_nil p)
      obtain ⟨t, qs, hqs⟩ := List.exists_cons_of_ne_nil (segmentsOf_ne_nil q)
      rw [hps, hqs]
      exact iff_of_false not_matchesSegments_nil not_matchesSegments_nil
    · exact ⟨fun hm => hback ((h _).mp (matches_of_segments hm hplain)) hne,
        fun hm => hback ((h _).mpr (matches_of_segments hm hplain)) hne⟩

/-- **Reserved namespaces.** A namespace is reported just when some path that the route matches is in it, and accepted
routes have the same shape just when they match the same paths. -/
theorem routes_keep_out {path : Text} (h : normalizeRoutePath path = .ok path) :
    (∀ ns ∈ reservedRouteNamespaces,
      routePatternIntersectsNamespace path ns = true ↔ ∃ concrete, Matches path concrete ∧ Within concrete ns) ∧
    ((intersectingReservedNamespace path).isSome = true ↔
      ∃ ns ∈ reservedRouteNamespaces, ∃ concrete, Matches path concrete ∧ Within concrete ns) ∧
    ∀ other, normalizeRoutePath other = .ok other →
      (routePathShape path = routePathShape other ↔ ∀ concrete, Matches path concrete ↔ Matches other concrete) := by
  have hns : ∀ ns ∈ reservedRouteNamespaces,
      routePatternIntersectsNamespace path ns = true ↔ ∃ concrete, Matches path concrete ∧ Within concrete ns :=
    fun ns hmem => intersectsNamespace_iff (accepted_of_normalize h).2 hmem
  refine ⟨hns, ?_, fun other hother => routePathShape_eq_iff h hother⟩
  unfold intersectingReservedNamespace
  rw [List.find?_isSome]
  exact exists_congr fun ns => and_congr_right fun hmem => hns ns hmem

/-- A parameter below `/v1` may be `tasks`. -/
theorem routes_keep_out_v1 :
    normalizeRoutePath "/v1/:job/".toList = .ok "/v1/:job/".toList ∧
    ((intersectingReservedNamespace "/v1/:job/".toList).isSome = true ↔
      ∃ ns ∈ reservedRouteNamespaces, ∃ concrete, Matches "/v1/:job/".toList concrete ∧ Within concrete ns) := by
  have haccepted : normalizeRoutePath "/v1/:job/".toList = .ok "/v1/:job/".toList := by decide
  exact ⟨haccepted, (routes_keep_out haccepted).2.1⟩

end Vancine.JsPlugin
