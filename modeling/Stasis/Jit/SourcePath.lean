import Stasis.Lib.Split

namespace Stasis.Jit

open List

abbrev SourcePath := List Char

namespace SourcePath

def display (path : SourcePath) : String := String.ofList path

def replaceBackslash (path : SourcePath) : SourcePath :=
  path.map fun c => if c = '\\' then '/' else c

def toAsciiUppercase (path : SourcePath) : SourcePath := path.map Char.toUpper

def isAsciiAlphabetic (c : Char) : Bool := c.isAlpha

def hasDrivePrefix : SourcePath → Bool
  | c :: ':' :: _ => isAsciiAlphabetic c
  | _ => false

def isRooted (path : SourcePath) : Bool :=
  path.head? = some '/' || (hasDrivePrefix path && path[2]? = some '/')

/-- Fold the components: `.` and empty ones are dropped, `..` takes one back. -/
def foldComponents (path : SourcePath) :
    List SourcePath → List SourcePath → Except String (List SourcePath)
  | done, [] => .ok done
  | done, component :: rest =>
    if component = [] ∨ component = ['.'] then foldComponents path done rest
    else if component = ['.', '.'] then
      if done = [] then .error ("source path escapes project root: '" ++ path.display ++ "'")
      else foldComponents path done.dropLast rest
    else if ':' ∈ component then
      .error ("invalid rooted source path component '" ++ component.display ++ "'")
    else foldComponents path (done ++ [component]) rest

def normalizeRelative (path : SourcePath) : Except String SourcePath :=
  match foldComponents path [] (path.splitOn '/') with
  | .error e => .error e
  | .ok [] => .error "canonical source path is empty"
  | .ok components => .ok (['/'].intercalate components)

def normalizeAbsolute (path : SourcePath) : Except String SourcePath :=
  let prefixLen := if path[1]? = some ':' then 2 else 0
  let drive := path.take prefixLen
  match normalizeRelative ((path.drop prefixLen).dropWhile (· = '/')) with
  | .error e => .error e
  | .ok relative => .ok (drive ++ '/' :: relative)

def trimEndSlashes (path : SourcePath) : SourcePath := (path.reverse.dropWhile (· = '/')).reverse

def belowRoot (projectRoot : Option SourcePath) (path : SourcePath) : Except String SourcePath := do
  let some root := projectRoot
    | throw ("absolute source path requires an explicit project root: '" ++ path.display ++ "'")
  let root := root.replaceBackslash
  if !root.isRooted || ['/', '/'].isPrefixOf root then
    throw ("project root must be an unambiguous absolute path: '" ++ root.display ++ "'")
  let root ← normalizeAbsolute root
  let path ← normalizeAbsolute path
  if path = root then
    throw "source path resolves to the project root, not a file"
  let rootDir := trimEndSlashes root ++ ['/']
  if rootDir.isPrefixOf path then return path.drop rootDir.length
  else throw ("source path is outside project root: '" ++ path.display ++ "'")

def uncMessage (path : SourcePath) : String :=
  "UNC source paths are not valid canonical project paths: '" ++ path.display ++ "'"

def stripVerbatim (path : SourcePath) : SourcePath :=
  if "//?/".toList.isPrefixOf path then path.drop 4 else path

def canonicalSourcePath (projectRoot : Option SourcePath) (path : SourcePath) :
    Except String SourcePath :=
  let replaced := path.replaceBackslash
  let path := stripVerbatim replaced
  if "//?/UNC/".toList.isPrefixOf replaced.toAsciiUppercase then .error (uncMessage replaced)
  else if ['/', '/'].isPrefixOf path then .error (uncMessage path)
  else if path.hasDrivePrefix && !path.isRooted then
    .error ("drive-relative source paths are not supported: '" ++ path.display ++ "'")
  else if path.isRooted then
    match belowRoot projectRoot path with
    | .error e => .error e
    | .ok relative => normalizeRelative relative
  else normalizeRelative path

structure Plain (component : SourcePath) : Prop where
  named : component ≠ [] ∧ component ≠ ['.'] ∧ component ≠ ['.', '.']
  characters : ∀ c ∈ component, c ≠ ':' ∧ c ≠ '/' ∧ c ≠ '\\'

def Canonical (path : SourcePath) : Prop :=
  ∃ components, components ≠ [] ∧ (∀ c ∈ components, Plain c) ∧ path = ['/'].intercalate components

lemma foldComponents_plain (hdone : ∀ c ∈ done, Plain c)
    (hrest : ∀ c ∈ rest, ∀ x ∈ c, x ≠ '/' ∧ x ≠ '\\')
    (h : foldComponents path done rest = .ok result) : ∀ c ∈ result, Plain c := by
  induction rest generalizing done with
  | nil =>
    cases h
    exact hdone
  | cons component rest ih =>
    have hrest' := fun c hc => hrest c (.tail _ hc)
    unfold foldComponents at h
    split_ifs at h with hskip hback hempty hcolon
    · exact ih hdone hrest' h
    · exact ih (fun c hc => hdone c (dropLast_subset _ hc)) hrest' h
    · apply ih _ hrest' h
      intro c hc
      rcases mem_append.mp hc with hc | hc
      · exact hdone c hc
      · obtain rfl := mem_singleton.mp hc
        rw [not_or] at hskip
        refine ⟨⟨hskip.1, hskip.2, hback⟩, fun x hx => ⟨?_, hrest _ (.head _) x hx⟩⟩
        rintro rfl
        exact hcolon hx

lemma foldComponents_of_plain (path : SourcePath) (h : ∀ c ∈ rest, Plain c) :
    foldComponents path done rest = .ok (done ++ rest) := by
  induction rest generalizing done with
  | nil => simp [foldComponents]
  | cons component rest ih =>
    obtain ⟨⟨hne, hdot, hdots⟩, hchars⟩ := h component (.head _)
    have hcolon : ':' ∉ component := fun hmem => (hchars _ hmem).1 rfl
    unfold foldComponents
    rw [if_neg (by simp [hne, hdot]), if_neg hdots, if_neg hcolon,
      ih fun c hc => h c (.tail _ hc), append_assoc, singleton_append]

lemma exists_of_normalizeRelative (h : normalizeRelative path = .ok result) :
    ∃ components, components ≠ [] ∧ foldComponents path [] (path.splitOn '/') = .ok components ∧
      result = ['/'].intercalate components := by
  unfold normalizeRelative at h
  split at h
  · cases h
  · cases h
  · rename_i components hne hfold
    exact ⟨components, hne, hfold, (Except.ok.inj h).symm⟩

lemma plain_of_foldComponents (hpath : '\\' ∉ path)
    (h : foldComponents path [] (path.splitOn '/') = .ok components) :
    ∀ c ∈ components, Plain c := by
  apply foldComponents_plain (by simp) _ h
  intro c hc x hx
  obtain ⟨hslash, hsub⟩ := mem_of_mem_splitOn hc
  exact ⟨fun heq => hslash (heq ▸ hx), fun heq => hpath (heq ▸ hsub hx)⟩

lemma normalizeRelative_canonical (hpath : '\\' ∉ path)
    (h : normalizeRelative path = .ok result) : Canonical result := by
  obtain ⟨components, hne, hfold, rfl⟩ := exists_of_normalizeRelative h
  exact ⟨components, hne, plain_of_foldComponents hpath hfold, rfl⟩

lemma splitOn_of_plain (hplain : ∀ c ∈ components, Plain c) (hne : components ≠ []) :
    (['/'].intercalate components).splitOn '/' = components :=
  splitOn_intercalate '/' (fun c hc hmem => ((hplain c hc).characters _ hmem).2.1 rfl) hne

lemma normalizeRelative_of_canonical (h : Canonical path) : normalizeRelative path = .ok path := by
  obtain ⟨components, hne, hplain, rfl⟩ := h
  unfold normalizeRelative
  rw [splitOn_of_plain hplain hne, foldComponents_of_plain _ hplain]
  cases components with
  | nil => exact absurd rfl hne
  | cons component components => rfl

lemma Canonical.characters (h : Canonical path) (hc : c ∈ path) : c ≠ ':' ∧ c ≠ '\\' := by
  obtain ⟨components, -, hplain, rfl⟩ := h
  rcases mem_intercalate_singleton hc with rfl | ⟨component, hmem, hc⟩
  · decide
  · obtain ⟨hcolon, -, hback⟩ := (hplain component hmem).characters c hc
    exact ⟨hcolon, hback⟩

lemma Canonical.head (h : Canonical path) : ∃ c rest, path = c :: rest ∧ c ≠ '/' := by
  obtain ⟨components, hne, hplain, rfl⟩ := h
  cases components with
  | nil => exact absurd rfl hne
  | cons component components =>
    obtain ⟨⟨hnil, -⟩, hchars⟩ := hplain component (.head _)
    cases component with
    | nil => exact absurd rfl hnil
    | cons c component =>
      have hc := (hchars c (.head _)).2.1
      cases components with
      | nil => exact ⟨c, component, by simp, hc⟩
      | cons next components => exact ⟨c, _, by rw [intercalate_cons_cons]; rfl, hc⟩

lemma replaceBackslash_not_mem (path : SourcePath) : '\\' ∉ path.replaceBackslash := by
  simp only [replaceBackslash, mem_map, not_exists, not_and]
  intro c _ heq
  split_ifs at heq with hc
  · exact absurd heq (by decide)
  · exact hc heq

lemma Canonical.last (h : Canonical path) : ∃ front c, path = front ++ [c] ∧ c ≠ '/' := by
  obtain ⟨components, hne, hplain, rfl⟩ := h
  induction components with
  | nil => exact absurd rfl hne
  | cons component components ih =>
    cases components with
    | nil =>
      obtain ⟨⟨hnil, -⟩, hchars⟩ := hplain component (.head _)
      refine ⟨component.dropLast, component.getLast hnil, ?_, (hchars _ (getLast_mem hnil)).2.1⟩
      simp [dropLast_append_getLast hnil]
    | cons next components =>
      obtain ⟨front, c, hlast, hc⟩ :=
        ih (cons_ne_nil _ _) fun other hother => hplain other (.tail _ hother)
      refine ⟨component ++ ['/'] ++ front, c, ?_, hc⟩
      rw [intercalate_cons_cons, hlast, append_assoc _ front]

/-- Where a file system gets to from a directory: `..` goes up, and stays at the top. -/
def walk : List SourcePath → List SourcePath → List SourcePath
  | here, [] => here
  | here, component :: rest =>
    if component = [] ∨ component = ['.'] then walk here rest
    else if component = ['.', '.'] then walk here.dropLast rest
    else walk (here ++ [component]) rest

/-- The drive of an absolute path, and the place it leads to. -/
def location (path : SourcePath) : SourcePath × List SourcePath :=
  let prefixLen := if path[1]? = some ':' then 2 else 0
  (path.take prefixLen, walk [] ((path.drop prefixLen).splitOn '/'))

lemma walk_of_foldComponents (h : foldComponents path done rest = .ok result)
    (here : List SourcePath) : walk (here ++ done) rest = here ++ result := by
  induction rest generalizing done with
  | nil =>
    cases h
    rfl
  | cons component rest ih =>
    unfold foldComponents at h
    unfold walk
    split_ifs at h ⊢ with hskip hback hempty hcolon
    · exact ih h
    · rw [dropLast_append_of_ne_nil hempty]
      exact ih h
    · rw [append_assoc]
      exact ih h

lemma walk_of_normalizeRelative (hpath : '\\' ∉ path) (h : normalizeRelative path = .ok result)
    (here : List SourcePath) : walk here (path.splitOn '/') = here ++ result.splitOn '/' := by
  obtain ⟨components, hne, hfold, rfl⟩ := exists_of_normalizeRelative h
  have hwalk := walk_of_foldComponents hfold here
  rwa [append_nil, ← splitOn_of_plain (plain_of_foldComponents hpath hfold) hne] at hwalk

lemma splitOn_append_cons (xs ys : SourcePath) :
    (xs ++ '/' :: ys).splitOn '/' = xs.splitOn '/' ++ ys.splitOn '/' :=
  splitOnP_append_cons xs ys (by decide)

lemma walk_dropWhile (here : List SourcePath) (path : SourcePath) :
    walk here ((path.dropWhile (· = '/')).splitOn '/') = walk here (path.splitOn '/') := by
  induction path with
  | nil => rfl
  | cons c path ih =>
    by_cases hc : c = '/'
    · subst hc
      rw [dropWhile_cons_of_pos (by decide), ih]
      -- the component in front of the slash is empty
      have hsplit := splitOn_append_cons [] path
      rw [nil_append] at hsplit
      rw [hsplit]
      rfl
    · rw [dropWhile_cons_of_neg (by simpa using hc)]

lemma location_of_normalizeAbsolute (hpath : '\\' ∉ path)
    (h : normalizeAbsolute path = .ok result) : ∃ drive relative, Canonical relative ∧
      result = drive ++ '/' :: relative ∧ location path = (drive, relative.splitOn '/') ∧
      (drive = [] ∨ ∃ c, drive = [c, ':']) := by
  unfold normalizeAbsolute at h
  dsimp only at h
  split at h
  · cases h
  · rename_i relative hrel
    have hback : '\\' ∉ (path.drop (if path[1]? = some ':' then 2 else 0)).dropWhile (· = '/') :=
      fun hmem => hpath (drop_subset _ _ (dropWhile_subset _ hmem))
    have hwalk := walk_of_normalizeRelative hback hrel []
    rw [walk_dropWhile, nil_append] at hwalk
    refine ⟨_, relative, normalizeRelative_canonical hback hrel, (Except.ok.inj h).symm,
      by rw [location, hwalk], ?_⟩
    by_cases hcolon : path[1]? = some ':'
    · rw [if_pos hcolon]
      obtain ⟨hlen, hsecond⟩ := List.getElem?_eq_some_iff.mp hcolon
      refine .inr ⟨path[0], ?_⟩
      rw [take_succ_eq_append_getElem hlen, hsecond, take_one]
      simp [head?_eq_getElem?, getElem?_eq_getElem (Nat.zero_lt_of_lt hlen)]
    · rw [if_neg hcolon]
      exact .inl rfl

lemma below_of_append (hrel : Canonical relative) (hroot : Canonical rootRelative)
    (hdrive : drive = [] ∨ ∃ c, drive = [c, ':'])
    (hrootDrive : rootDrive = [] ∨ ∃ c, rootDrive = [c, ':'])
    (h : drive ++ '/' :: relative = rootDrive ++ '/' :: rootRelative ++ '/' :: rest) :
    drive = rootDrive ∧ relative = rootRelative ++ '/' :: rest := by
  have hcolon : ∀ {path : SourcePath}, Canonical path → ∀ tail, path ≠ ':' :: tail := by
    rintro path hcan tail rfl
    exact (hcan.characters (.head _)).1 rfl
  rcases hdrive with rfl | ⟨c, rfl⟩ <;> rcases hrootDrive with rfl | ⟨c', rfl⟩
  · exact ⟨rfl, (cons.inj h).2⟩
  · exact absurd (cons.inj h).2 (hcolon hrel _)
  · obtain ⟨x, tail, rfl, -⟩ := hroot.head
    obtain ⟨rfl, -⟩ := cons.inj (cons.inj h).2
    exact absurd rfl (hcolon hroot tail)
  · simp only [cons_append, nil_append, cons.injEq, true_and] at h
    exact ⟨by rw [h.1], h.2⟩

lemma trimEndSlashes_append (hroot : Canonical relative) :
    trimEndSlashes (drive ++ '/' :: relative) = drive ++ '/' :: relative := by
  obtain ⟨front, c, rfl, hc⟩ := hroot.last
  have hreverse : (drive ++ '/' :: (front ++ [c])).reverse =
      c :: (drive ++ '/' :: front).reverse := by simp
  rw [trimEndSlashes, hreverse, dropWhile_cons_of_neg (by simpa using hc), ← hreverse,
    reverse_reverse]

lemma location_of_belowRoot (hpath : '\\' ∉ path) (h : belowRoot projectRoot path = .ok result) :
    Canonical result ∧ ∃ root, projectRoot = some root ∧
      location path = ((location root.replaceBackslash).1,
        (location root.replaceBackslash).2 ++ result.splitOn '/') := by
  unfold belowRoot at h
  rcases projectRoot with _ | root
  · cases h
  dsimp only [bind, Except.bind] at h
  split_ifs at h
  split at h
  · cases h
  rename_i root' hroot
  split at h
  · cases h
  rename_i path' hpath'
  split_ifs at h with hsame hbelow
  obtain rfl := Except.ok.inj h
  obtain ⟨rootDrive, rootRelative, hrootCan, rfl, hrootLoc, hrootDrive⟩ :=
    location_of_normalizeAbsolute (replaceBackslash_not_mem root) hroot
  obtain ⟨drive, relative, hcan, rfl, hloc, hdrive⟩ := location_of_normalizeAbsolute hpath hpath'
  rw [trimEndSlashes_append hrootCan] at hbelow ⊢
  obtain ⟨rest, hrest⟩ := isPrefixOf_iff_prefix.mp hbelow
  rw [← hrest, drop_left]
  rw [append_assoc _ ['/'], singleton_append] at hrest
  obtain ⟨rfl, rfl⟩ := below_of_append hcan hrootCan hdrive hrootDrive hrest.symm
  rw [splitOn_append_cons] at hloc
  refine ⟨?_, root, rfl, by rw [hloc, hrootLoc]⟩
  -- the components below the root are components of the path
  obtain ⟨components, hne, hplain, hjoined⟩ := hcan
  have hsplit := congrArg (splitOn '/') hjoined
  rw [splitOn_of_plain hplain hne, splitOn_append_cons] at hsplit
  refine ⟨rest.splitOn '/', by simp [splitOn], fun c hc => hplain c ?_,
    (intercalate_splitOn '/').symm⟩
  rw [← hsplit]
  exact mem_append_right _ hc

/-- A path with its separators made uniform and without a verbatim marker. -/
def spelled (path : SourcePath) : SourcePath := stripVerbatim path.replaceBackslash

lemma spelled_not_mem (path : SourcePath) : '\\' ∉ spelled path := by
  unfold spelled stripVerbatim
  split_ifs
  · exact fun hmem => replaceBackslash_not_mem path (drop_subset _ _ hmem)
  · exact replaceBackslash_not_mem path

/-- Taken from the project root, the result leads to where the given path does: an absolute
path by itself, a relative one from any root. -/
def LeadsTo (projectRoot : Option SourcePath) (given result : SourcePath) : Prop :=
  if (spelled given).isRooted then
    ∃ root, projectRoot = some root ∧ location (spelled given) =
      ((location root.replaceBackslash).1,
        (location root.replaceBackslash).2 ++ result.splitOn '/')
  else ∀ here, walk here ((spelled given).splitOn '/') = here ++ result.splitOn '/'

lemma canonicalSourcePath_spec (h : canonicalSourcePath projectRoot path = .ok result) :
    Canonical result ∧ LeadsTo projectRoot path result := by
  have hpath := spelled_not_mem path
  unfold canonicalSourcePath at h
  unfold LeadsTo
  dsimp only at h
  rw [show stripVerbatim path.replaceBackslash = spelled path from rfl] at h
  split_ifs at h with _ _ _ hrooted
  · rw [if_pos hrooted]
    split at h
    · cases h
    · rename_i relative hrel
      obtain ⟨hcan, hlead⟩ := location_of_belowRoot hpath hrel
      obtain rfl := Except.ok.inj ((normalizeRelative_of_canonical hcan).symm.trans h)
      exact ⟨hcan, hlead⟩
  · rw [if_neg hrooted]
    exact ⟨normalizeRelative_canonical hpath h, walk_of_normalizeRelative hpath h⟩

lemma toUpper_ne_slash (h : c ≠ '/') : c.toUpper ≠ '/' := by
  unfold Char.toUpper
  split_ifs with hlower
  · intro heq
    have hval := congrArg UInt32.toNat (congrArg Char.val heq)
    simp [UInt32.le_iff_toNat_le] at hval hlower
    omega
  · exact h

lemma canonicalSourcePath_of_canonical (projectRoot : Option SourcePath) (h : Canonical path) :
    canonicalSourcePath projectRoot path = .ok path := by
  obtain ⟨c, rest, hhead, hc⟩ := h.head
  have hrep : path.replaceBackslash = path := by
    conv_rhs => rw [← map_id path]
    apply map_congr_left
    intro x hx
    rw [if_neg (h.characters hx).2, id]
  have hslash : ∀ tail : List Char, ('/' :: tail).isPrefixOf path = false := by
    intro tail
    rw [hhead, isPrefixOf_cons_cons, Bool.and_eq_false_iff]
    exact .inl (by simpa using hc.symm)
  have hunc : ∀ tail : List Char, ('/' :: tail).isPrefixOf path.toAsciiUppercase = false := by
    intro tail
    rw [hhead, toAsciiUppercase, map_cons, isPrefixOf_cons_cons, Bool.and_eq_false_iff]
    exact .inl (by simpa using (toUpper_ne_slash hc).symm)
  have hstrip : stripVerbatim path = path := by
    unfold stripVerbatim
    have hver : "//?/".toList.isPrefixOf path = false := hslash "/?/".toList
    rw [hver, if_neg (by decide)]
  have hdrive : path.hasDrivePrefix = false := by
    unfold hasDrivePrefix
    split
    next d tail => exact absurd rfl (h.characters (c := ':') (by simp)).1
    · rfl
  have hroo : path.isRooted = false := by
    have hfirst : path.head? ≠ some '/' := by simpa [hhead] using hc
    simp [isRooted, hdrive, hfirst]
  have hver : "//?/UNC/".toList.isPrefixOf path.toAsciiUppercase = false := hunc "/?/UNC/".toList
  unfold canonicalSourcePath
  dsimp only
  rw [hrep, hstrip, hver, if_neg (by decide), hslash, if_neg (by decide), hdrive, hroo]
  exact normalizeRelative_of_canonical h

end SourcePath

end Stasis.Jit
