import Mathlib.Data.List.Basic
import Mathlib.Data.List.Induction

namespace ResearchWorkbench.Posix

/-!
# Paths with slashes

The functions of `node:path` on POSIX, on texts as lists of code units.  A path is walked segment
by segment: empty segments and `.` are skipped, `..` goes up and stops at the root.

* `normalizeSegments`, `absolute` — the segments of a path, and the absolute path of segments;
* `resolve`, `join`, `relative` — `path.resolve`, `path.join`, `path.relative`;
* `Plain` — a segment that a walk keeps;
* `normalizeSegments_absolute`, `resolve_below`, `join_below`, `relative_below` — below a path, with
  plain segments, the three functions append, append and cut off.
-/

/-- `path.sep`. -/
def slash : ℕ := 47

/-- The segment `.`. -/
def here : List ℕ := [46]

/-- The segment `..`. -/
def up : List ℕ := [46, 46]

/-- One segment of a path, after those before it. -/
def takeSegment (before : List (List ℕ)) (segment : List ℕ) : List (List ℕ) :=
  if segment = [] ∨ segment = here then before
  else if segment = up then before.dropLast
  else before ++ [segment]

/-- The segments a path comes to, after those before it. -/
def walk (before : List (List ℕ)) (path : List ℕ) : List (List ℕ) :=
  (path.splitOn slash).foldl takeSegment before

/-- The segments of an absolute path. -/
def normalizeSegments (path : List ℕ) : List (List ℕ) := walk [] path

/-- The absolute path of segments. -/
def absolute (segments : List (List ℕ)) : List ℕ := slash :: [slash].intercalate segments

/-- What `path.resolve` puts together, from its last argument back to the first that is absolute. -/
def resolvedPath : List (List ℕ) → List ℕ
  | [] => []
  | path :: before =>
    if path = [] then resolvedPath before
    else if path.head? = some slash then path ++ [slash]
    else resolvedPath before ++ path ++ [slash]

/-- `path.resolve(...paths)` in a working directory, which is an absolute path. -/
def resolve (cwd : List ℕ) (paths : List (List ℕ)) : List ℕ :=
  absolute (normalizeSegments (resolvedPath (cwd :: paths).reverse))

/-- `path.join(directory, name)` of an absolute directory and a name that is not empty. -/
def join (directory name : List ℕ) : List ℕ :=
  let path := absolute (normalizeSegments (directory ++ slash :: name))
  if name.getLast? = some slash ∧ path ≠ [slash] then path ++ [slash] else path

/-- From one path of segments to another: up to what they share, then down. -/
def relativeSegments : List (List ℕ) → List (List ℕ) → List (List ℕ)
  | segment :: source, segment' :: target =>
    if segment = segment' then relativeSegments source target
    else (segment :: source).map (fun _ => up) ++ segment' :: target
  | source, target => source.map (fun _ => up) ++ target

/-- `path.relative(source, target)` of absolute paths. -/
def relative (source target : List ℕ) : List ℕ :=
  [slash].intercalate (relativeSegments (normalizeSegments source) (normalizeSegments target))

/-- A segment that a walk keeps as it is. -/
structure Plain (segment : List ℕ) : Prop where
  ne_nil : segment ≠ []
  ne_here : segment ≠ here
  ne_up : segment ≠ up
  notMem : slash ∉ segment

instance : DecidablePred Plain := fun _ =>
  decidable_of_iff (_ ∧ _ ∧ _ ∧ _)
    ⟨fun h => ⟨h.1, h.2.1, h.2.2.1, h.2.2.2⟩, fun h => ⟨h.1, h.2, h.3, h.4⟩⟩

variable {base segments : List (List ℕ)} {segment path rest : List ℕ}

/-! ### Walks -/

theorem Plain.take (h : Plain segment) : takeSegment base segment = base ++ [segment] := by
  rw [takeSegment, if_neg (not_or.mpr ⟨h.ne_nil, h.ne_here⟩), if_neg h.ne_up]

theorem foldl_takeSegment (h : ∀ segment ∈ segments, Plain segment) :
    segments.foldl takeSegment base = base ++ segments := by
  induction segments generalizing base with
  | nil => exact (List.append_nil base).symm
  | cons segment segments ih =>
    rw [List.forall_mem_cons] at h
    rw [List.foldl_cons, h.1.take, ih h.2, List.append_assoc, List.singleton_append]

theorem walk_nil : walk base [] = base := by
  rw [walk, List.splitOn_nil]
  show takeSegment base [] = base
  exact if_pos (Or.inl rfl)

/-- A walk of two paths, one after the other. -/
theorem walk_append : walk base (path ++ slash :: rest) = walk (walk base path) rest := by
  rw [walk, walk, walk, List.splitOn_append_cons_self, List.foldl_append]

theorem walk_slash : walk base (slash :: rest) = walk base rest := by
  have h : walk base ([] ++ slash :: rest) = walk (walk base []) rest := walk_append
  rwa [walk_nil] at h

theorem Plain.walk (h : Plain segment) : walk base segment = base ++ [segment] := by
  rw [Posix.walk, List.splitOn_eq_singleton h.notMem]
  exact h.take

/-- The segments of a path of plain segments. -/
theorem normalizeSegments_absolute (h : ∀ segment ∈ segments, Plain segment) :
    normalizeSegments (absolute segments) = segments := by
  rw [normalizeSegments, absolute, walk_slash]
  by_cases hnil : segments = []
  · subst hnil
    exact walk_nil
  · rw [walk, List.splitOn_intercalate slash (fun segment hmem => (h segment hmem).notMem) hnil,
      foldl_takeSegment h, List.nil_append]

/-- The pieces between slashes have none. -/
theorem slash_notMem_splitOn : ∀ segment ∈ path.splitOn slash, slash ∉ segment := by
  induction path with
  | nil => simp
  | cons c path ih =>
    rw [List.splitOn_cons_eq_if_modifyHead]
    split
    · rintro segment hmem
      rcases List.mem_cons.mp hmem with rfl | hmem
      · exact List.not_mem_nil
      · exact ih segment hmem
    · next hc =>
      rcases List.exists_cons_of_ne_nil (List.splitOn_ne_nil slash path) with ⟨head, tail, heq⟩
      rw [heq] at ih ⊢
      rw [List.forall_mem_cons] at ih
      rw [List.modifyHead_cons, List.forall_mem_cons]
      refine ⟨fun hmem => ?_, ih.2⟩
      rcases List.mem_cons.mp hmem with hslash | hmem
      · exact hc (by simp [hslash])
      · exact ih.1 hmem

/-! ### Below a path -/

theorem intercalate_append (hbase : base ≠ []) (hsegments : segments ≠ []) :
    [slash].intercalate (base ++ segments) =
      [slash].intercalate base ++ slash :: [slash].intercalate segments := by
  induction base with
  | nil => exact absurd rfl hbase
  | cons segment base ih =>
    cases base with
    | nil =>
      rw [List.singleton_append, List.intercalate_cons_of_ne_nil hsegments,
        List.intercalate_singleton, List.append_assoc, List.singleton_append]
    | cons segment' base =>
      have hcons := ih (List.cons_ne_nil _ _)
      rw [List.cons_append, List.cons_append, List.intercalate_cons_cons,
        List.intercalate_cons_cons, ← List.cons_append, hcons]
      simp only [List.append_assoc]

theorem absolute_append (hbase : base ≠ []) (hsegments : segments ≠ []) :
    absolute (base ++ segments) = absolute base ++ slash :: [slash].intercalate segments := by
  rw [absolute, absolute, intercalate_append hbase hsegments, List.cons_append]

/-- Segments are told apart by the path they make. -/
theorem intercalate_injective {segments' : List (List ℕ)} (hnil : segments ≠ [])
    (hnil' : segments' ≠ []) (h : ∀ segment ∈ segments, slash ∉ segment)
    (h' : ∀ segment ∈ segments', slash ∉ segment)
    (heq : [slash].intercalate segments = [slash].intercalate segments') :
    segments = segments' := by
  rw [← List.splitOn_intercalate slash h hnil, heq, List.splitOn_intercalate slash h' hnil']

/-- `path.resolve` of an absolute path and plain segments. -/
theorem resolve_below (cwd : List ℕ) (hbase : ∀ segment ∈ base, Plain segment)
    (h : ∀ segment ∈ segments, Plain segment) :
    resolve cwd (absolute base :: segments) = absolute (base ++ segments) := by
  have hresolved : ∃ path, resolvedPath (cwd :: absolute base :: segments).reverse = path ++ [slash] ∧
      normalizeSegments path = base ++ segments := by
    induction segments using List.reverseRecOn with
    | nil =>
      refine ⟨absolute base, ?_, ?_⟩
      · rw [List.reverse_cons, List.reverse_singleton]
        rfl
      · rw [normalizeSegments_absolute hbase, List.append_nil]
    | append_singleton segments segment ih =>
      obtain ⟨path, hpath, hwalk⟩ := ih fun s hmem => h s (List.mem_append_left _ hmem)
      have hplain := h segment (List.mem_append_right _ (List.mem_singleton_self _))
      have hhead : segment.head? ≠ some slash := fun heq =>
        hplain.notMem (List.mem_of_head? heq)
      refine ⟨path ++ slash :: segment, ?_, ?_⟩
      · rw [← List.cons_append, ← List.cons_append, List.reverse_append, List.reverse_singleton,
          List.singleton_append, resolvedPath, if_neg hplain.ne_nil, if_neg hhead, hpath]
        simp
      · rw [normalizeSegments, walk_append, hplain.walk]
        rw [normalizeSegments] at hwalk
        rw [hwalk, List.append_assoc]
  obtain ⟨path, hpath, hwalk⟩ := hresolved
  rw [resolve, hpath, normalizeSegments, walk_append, walk_nil]
  rw [normalizeSegments] at hwalk
  rw [hwalk]

/-- `path.join` of an absolute path and a plain segment. -/
theorem join_below (hbase : ∀ segment ∈ base, Plain segment) (h : Plain segment) :
    join (absolute base) segment = absolute (base ++ [segment]) := by
  have hlast : segment.getLast? ≠ some slash := fun heq =>
    h.notMem (List.mem_of_getLast? heq)
  have hwalk := normalizeSegments_absolute hbase
  rw [normalizeSegments] at hwalk
  simp only [join, normalizeSegments, walk_append, hwalk, h.walk]
  exact if_neg fun hslash => hlast hslash.1

theorem relativeSegments_append (base segments : List (List ℕ)) :
    relativeSegments base (base ++ segments) = segments := by
  induction base with
  | nil => cases segments <;> rfl
  | cons segment base ih =>
    rw [List.cons_append, relativeSegments, if_pos rfl, ih]

/-- `path.relative` to a path below. -/
theorem relative_below (hbase : ∀ segment ∈ base, Plain segment)
    (h : ∀ segment ∈ segments, Plain segment) :
    relative (absolute base) (absolute (base ++ segments)) = [slash].intercalate segments := by
  rw [relative, normalizeSegments_absolute hbase, normalizeSegments_absolute,
    relativeSegments_append]
  exact fun segment hmem => (List.mem_append.mp hmem).elim (hbase segment) (h segment)

end ResearchWorkbench.Posix
