import CodeSpace.Runner.Files

namespace CodeSpace.Runner

open Data

/-! The globs of `find`, against what a pattern of characters and stars stands for. -/

/-- A star stands for any characters, and every other character for itself. -/
inductive Matches : List Char → List Char → Prop
  | nil : Matches [] []
  | letter {letter : Char} {pattern path : List Char} (notStar : letter ≠ '*')
      (rest : Matches pattern path) : Matches (letter :: pattern) (letter :: path)
  | star {pattern path : List Char} (any : List Char) (rest : Matches pattern path) :
      Matches ('*' :: pattern) (any ++ path)

/-- All stars stand at the two ends, or the pattern is `*.` and an extension. -/
def OuterStars (pattern : List Char) : Prop :=
  (∃ extension, pattern = '*' :: '.' :: extension ∧ '*' ∉ extension) ∨
    ¬['*', '.'] <+: pattern ∧ ∃ first text last,
      pattern = List.replicate first '*' ++ text ++ List.replicate last '*' ∧ '*' ∉ text

/-- The characters of the pattern but its stars stand in the path in one piece; behind a first `*.` the
rest of the pattern ends the path as it stands. -/
def InOnePiece (pattern path : List Char) : Prop :=
  if ['*', '.'] <+: pattern then pattern.tail <:+ path else pattern.filter (· ≠ '*') <:+: path

/-- The walk lists every file of the workspace. -/
def WalkResult.Complete (walked : WalkResult) (disk : Disk) (root : Path) : Prop :=
  ∀ names content mode,
    disk.entries (root ++ names) = some (.file content mode) → root ++ names ∈ walked.files

variable {pattern first second path text : List Char} {root : Path} {glob : Option String}
  {files : List Path} {file : Path} {names : List String}

theorem Matches.split (matched : Matches (first ++ second) path) :
    ∃ before after, path = before ++ after ∧ Matches first before ∧ Matches second after := by
  induction first generalizing path with
  | nil => exact ⟨[], path, rfl, .nil, matched⟩
  | cons letter _ ih =>
      cases matched with
      | letter notStar rest =>
          obtain ⟨before, after, rfl, isFirst, isSecond⟩ := ih rest
          exact ⟨letter :: before, after, rfl, .letter notStar isFirst, isSecond⟩
      | star any rest =>
          obtain ⟨before, after, rfl, isFirst, isSecond⟩ := ih rest
          exact ⟨any ++ before, after, by rw [List.append_assoc], .star any isFirst, isSecond⟩

theorem Matches.literal (noStar : '*' ∉ text) (rest : Matches pattern path) :
    Matches (text ++ pattern) (text ++ path) := by
  induction text with
  | nil => exact rest
  | cons _ _ ih =>
      obtain ⟨differs, later⟩ := List.ne_and_not_mem_of_not_mem_cons noStar
      exact .letter differs.symm (ih later)

theorem Matches.eq_of_no_star (noStar : '*' ∉ pattern) (matched : Matches pattern path) :
    path = pattern := by
  induction matched with
  | nil => rfl
  | letter _ _ ih => rw [ih fun later => noStar (List.mem_cons_of_mem _ later)]
  | star => exact absurd List.mem_cons_self noStar

/-- Every star may stand for itself, and for nothing. -/
theorem Matches.self (pattern : List Char) : Matches pattern pattern := by
  induction pattern with
  | nil => exact .nil
  | cons letter _ ih =>
      by_cases isStar : letter = '*'
      · subst isStar
        exact .star ['*'] ih
      · exact .letter isStar ih

theorem Matches.filtered (pattern : List Char) : Matches pattern (pattern.filter (· ≠ '*')) := by
  induction pattern with
  | nil => exact .nil
  | cons letter _ ih =>
      by_cases isStar : letter = '*'
      · subst isStar
        exact .star [] ih
      · rw [List.filter_cons_of_pos (by simpa using isStar)]
        exact .letter isStar ih

theorem filter_eq_self_of_no_star (noStar : '*' ∉ text) : text.filter (· ≠ '*') = text :=
  List.filter_eq_self.mpr fun _ isLetter =>
    decide_eq_true fun isStar => noStar (isStar ▸ isLetter)

theorem eq_replicate_of_filter (stars : text.filter (· ≠ '*') = []) :
    text = List.replicate text.length '*' :=
  List.eq_replicate_iff.mpr ⟨rfl, fun _ isLetter => by
    simpa using List.filter_eq_nil_iff.mp stars _ isLetter⟩

theorem OuterStars.inOnePiece (outer : OuterStars pattern) (matched : Matches pattern path) :
    InOnePiece pattern path := by
  rcases outer with ⟨extension, rfl, noStar⟩ | ⟨notDotted, first, text, last, rfl, noStar⟩
  · have whole : Matches (['*'] ++ '.' :: extension) path := matched
    obtain ⟨before, after, rfl, _, isAfter⟩ := whole.split
    rw [InOnePiece, if_pos (by simp), isAfter.eq_of_no_star (by simp [noStar])]
    exact List.suffix_append before _
  · obtain ⟨_, after, rfl, isUpTo, _⟩ := matched.split
    obtain ⟨before, _, rfl, _, isMiddle⟩ := isUpTo.split
    obtain rfl := isMiddle.eq_of_no_star noStar
    rw [InOnePiece, if_neg notDotted, List.filter_append, List.filter_append,
      filter_eq_self_of_no_star noStar]
    simp only [List.filter_replicate, ne_eq, not_true_eq_false, decide_false, Bool.false_eq_true,
      if_false, List.nil_append, List.append_nil]
    exact ⟨before, after, rfl⟩

/-- Every path that a pattern stands for holds its characters in one piece exactly if all of its stars
stand at the ends. -/
theorem outerStars_iff : OuterStars pattern ↔ ∀ path, Matches pattern path → InOnePiece pattern path := by
  refine ⟨fun outer path => outer.inOnePiece, fun holds => ?_⟩
  by_cases dotted : ['*', '.'] <+: pattern
  · obtain ⟨extension, rfl⟩ := dotted
    refine .inl ⟨extension, rfl, fun isStar => ?_⟩
    have ends := holds _ (.filtered _)
    rw [InOnePiece, if_pos (by simp)] at ends
    simpa using List.mem_filter.mp (ends.subset (List.mem_cons_of_mem '.' isStar))
  · obtain ⟨before, after, isPattern⟩ : pattern.filter (· ≠ '*') <:+: pattern := by
      simpa only [InOnePiece, if_neg dotted] using holds pattern (.self pattern)
    have parts := congrArg (List.filter (· ≠ '*')) isPattern
    rw [List.filter_append, List.filter_append, List.filter_filter] at parts
    simp only [Bool.and_self] at parts
    have lengths := congrArg List.length parts
    simp only [List.length_append] at lengths
    refine .inr ⟨dotted, before.length, pattern.filter (· ≠ '*'), after.length, ?_, by simp⟩
    rw [← eq_replicate_of_filter (List.length_eq_zero_iff.mp (by omega)),
      ← eq_replicate_of_filter (List.length_eq_zero_iff.mp (by omega)), isPattern]

theorem globMatch_iff {pattern path : String} (matched : Matches pattern.toList path.toList) :
    globMatch pattern path = true ↔ InOnePiece pattern.toList path.toList := by
  dsimp only [globMatch]
  split
  next special =>
    have outer : OuterStars pattern.toList := by
      rcases special with rfl | rfl | rfl
      · exact .inr ⟨by decide, 1, [], 0, by decide, List.not_mem_nil⟩
      · exact .inr ⟨by decide, 2, [], 0, by decide, List.not_mem_nil⟩
      · exact .inr ⟨by decide, 2, ['/'], 1, by decide, by decide⟩
    exact iff_of_true rfl (outer.inOnePiece matched)
  unfold InOnePiece
  split
  next dotted =>
    obtain ⟨_, isPattern⟩ := dotted
    rw [← isPattern]
    simp
  split
  next literal =>
    rw [filter_eq_self_of_no_star literal, ← matched.eq_of_no_star literal]
    exact iff_of_true (by simp [String.toList_inj.mp (matched.eq_of_no_star literal)])
      (List.infix_refl _)
  · rw [decide_eq_true_eq, or_iff_right_of_imp]
    rintro isEmpty
    rw [isEmpty]
    exact List.nil_infix

theorem keeps_iff {pattern path : String} (matched : Matches pattern.toList path.toList) :
    keeps (some pattern) path = true ↔ InOnePiece pattern.toList path.toList := by
  unfold keeps
  rw [Option.filter_some]
  split
  · exact globMatch_iff matched
  next isEmpty =>
    obtain rfl : pattern = "" := by simpa using isEmpty
    exact iff_of_true rfl List.nil_infix

theorem below?_eq_some : below? root file = some names ↔ file = root ++ names := by
  constructor
  · intro isBelow
    obtain ⟨⟨_, rfl⟩, same⟩ := Option.ite_none_right_eq_some.mp isBelow
    rw [← Option.some.inj same, List.drop_left]
  · rintro rfl
    exact below?_append root names

theorem mem_relativePaths {found : List String} (walked : relativePaths root glob files = .ok found)
    {relative : String} : relative ∈ found ↔ ∃ names, root ++ names ∈ files ∧
      relative = normalizeRel (joinNames names) ∧ keeps glob relative = true := by
  induction files generalizing found with
  | nil =>
      cases walked
      simp
  | cons _ _ ih =>
      unfold relativePaths at walked
      split at walked
      · cases walked
      next isBelow =>
        obtain rfl := below?_eq_some.mp isBelow
        obtain ⟨_, isLater, same⟩ := bind_eq_ok.mp walked
        cases same
        simp only [List.mem_cons, List.append_cancel_left_eq, or_and_right, exists_or,
          exists_eq_left, ← ih isLater]
        split
        next kept =>
          rw [List.mem_cons, and_iff_left_of_imp]
          rintro rfl
          exact kept
        next dropped =>
          rw [or_iff_right]
          rintro ⟨rfl, kept⟩
          exact dropped kept

theorem find_one_page (sandbox : PathSandbox) {survey : Survey} {listing : List String × Bool}
    (observed : survey.listing glob = .ok listing) (few : listing.1.length ≤ defaultFindLimit) :
    ∃ page, Paged (sandbox.FindCall glob listing) FindResult.nextOffset [page] none ∧
      page.paths = listing.1 := by
  have answered : ∃ page, sandbox.findWindow survey glob none none = .ok page ∧ page.nextOffset = none ∧
      page.paths = listing.1 := by
    refine ⟨_, bind_eq_ok.mpr ⟨defaultFindLimit, by decide, bind_eq_ok.mpr ⟨_, observed, rfl⟩⟩, ?_⟩
    simp [pathWindow_eq, few]
  obtain ⟨page, answered, isLast, isPaths⟩ := answered
  exact ⟨page, isLast ▸ .call .start ⟨rfl, observed, answered⟩, isPaths⟩

/-- The workspace `/w`, with a file `src/main.rs`. -/
def oneSource : Disk :=
  ((FileTree.bare.put firstByte.workspace.root .directory (by decide)).put ["w", "src"] .directory
    (by decide)).put ["w", "src", "main.rs"] (.file [] 420) (by decide)

def oneSourceWalk : WalkResult where
  files := [["w", "src", "main.rs"]]
  truncated := false

def oneSourceSurvey : Survey where
  root := .ok ["w"]
  walked := .ok oneSourceWalk

theorem oneSourceWalk_complete : oneSourceWalk.Complete oneSource ["w"] := by
  intro names content mode isFile
  by_contra unlisted
  have other : ["w"] ++ names ≠ ["w", "src", "main.rs"] := fun same =>
    unlisted (by simp [oneSourceWalk, same])
  rw [oneSource, FileTree.put_entries, Function.update_of_ne other] at isFile
  simp only [FileTree.put_entries, Function.update_apply] at isFile
  split at isFile
  · cases isFile
  split at isFile <;> cases isFile

theorem normalizeRel_eq {relative : String} (noBackslash : '\\' ∉ relative.toList) :
    normalizeRel relative = relative := by
  have same : relative.toList.map (fun letter => if letter = '\\' then '/' else letter) =
      relative.toList :=
    (List.map_congr_left fun letter isLetter => if_neg (ne_of_mem_of_not_mem isLetter noBackslash)).trans
      (List.map_id _)
  rw [normalizeRel, same, String.ofList_toList]

theorem backslash_not_mem_normalizeRel (relative : String) : '\\' ∉ (normalizeRel relative).toList := by
  rw [normalizeRel, String.toList_ofList, List.mem_map]
  rintro ⟨letter, _, same⟩
  split at same
  · cases same
  · contradiction

theorem mem_pages_iff {sandbox : PathSandbox} {survey : Survey} {walked : WalkResult}
    {listing : List String × Bool} {pages : List FindResult} (canonical : survey.root = .ok root)
    (isWalk : survey.walked = .ok walked) (observed : survey.listing glob = .ok listing)
    (paged : Paged (sandbox.FindCall glob listing) FindResult.nextOffset pages none) {relative : String} :
    (∃ page ∈ pages, relative ∈ page.paths) ↔ ∃ names, root ++ names ∈ walked.files ∧
      relative = normalizeRel (joinNames names) ∧ keeps glob relative = true := by
  have covers : Covers listing.1 (pages.map fun page => (page.offset, page.paths)) none :=
    (paged.covers fun _ _ call => call.isWindow.1).1
  obtain ⟨_, isRoot, observed⟩ := bind_eq_ok.mp observed
  obtain ⟨_, isResult, observed⟩ := bind_eq_ok.mp observed
  obtain ⟨found, isFound, same⟩ := bind_eq_ok.mp observed
  rw [canonical] at isRoot
  rw [isWalk] at isResult
  cases isRoot
  cases isResult
  cases same
  have covered : pages.flatMap FindResult.paths = found.insertionSort (· ≤ ·) := by
    have covered := covers.covered
    rwa [Option.getD_none, List.take_length, List.flatMap_map] at covered
  rw [← mem_relativePaths isFound, ← List.mem_insertionSort (· ≤ ·), ← covered, List.mem_flatMap]

/-- Paging through `find` to its end returns a file that the pattern stands for under its own path exactly
if that holds no backslash and the pattern's characters in one piece, as do all paths that the pattern
stands for exactly if its stars are at its ends. -/
theorem find_returns_matches_iff {sandbox : PathSandbox} {survey : Survey} {walked : WalkResult}
    {disk : Disk} {pattern : String} {listing : List String × Bool} {pages : List FindResult}
    (canonical : survey.root = .ok root) (isWalk : survey.walked = .ok walked)
    (lists : walked.truncated = false → walked.Complete disk root) (uncapped : walked.truncated = false)
    (observed : survey.listing (some pattern) = .ok listing)
    (paged : Paged (sandbox.FindCall (some pattern) listing) FindResult.nextOffset pages none) :
    (∀ names content mode, disk.entries (root ++ names) = some (.file content mode) →
      Matches pattern.toList (joinNames names).toList →
      ((∃ page ∈ pages, joinNames names ∈ page.paths) ↔ '\\' ∉ (joinNames names).toList ∧
        InOnePiece pattern.toList (joinNames names).toList)) ∧
    (OuterStars pattern.toList ↔
      ∀ path, Matches pattern.toList path → InOnePiece pattern.toList path) := by
  refine ⟨fun names content mode isFile matched => ?_, outerStars_iff⟩
  rw [mem_pages_iff canonical isWalk observed paged, keeps_iff matched]
  constructor
  · rintro ⟨others, _, same, isHeld⟩
    exact ⟨same ▸ backslash_not_mem_normalizeRel _, isHeld⟩
  · rintro ⟨noBackslash, isHeld⟩
    exact ⟨names, lists uncapped names content mode isFile, (normalizeRel_eq noBackslash).symm, isHeld⟩

theorem find_returns_extension :
    ∃ pages, Paged (firstByte.FindCall (some "*.rs") (["src/main.rs"], false)) FindResult.nextOffset
        pages none ∧
      ∃ page ∈ pages, "src/main.rs" ∈ page.paths := by
  have observed : oneSourceSurvey.listing (some "*.rs") = .ok (["src/main.rs"], false) := by
    decide +kernel
  obtain ⟨page, paged, _⟩ := find_one_page firstByte observed (by decide)
  have matched : Matches ('*' :: (".rs".toList ++ [])) ("src/main".toList ++ (".rs".toList ++ [])) :=
    .star _ (.literal (by decide) .nil)
  obtain ⟨returned, outer⟩ := find_returns_matches_iff rfl rfl (fun _ => oneSourceWalk_complete) rfl
    observed paged
  exact ⟨[page], paged, (returned ["src", "main.rs"] [] 420 rfl matched).mpr
    ⟨by decide, outer.mp (.inl ⟨"rs".toList, by decide, by decide⟩) _ matched⟩⟩

theorem find_misses_inner_star :
    oneSourceWalk.Complete oneSource ["w"] ∧ oneSourceWalk.truncated = false ∧
      oneSource.entries ["w", "src", "main.rs"] = some (.file [] 420) ∧
      Matches "src/*.rs".toList "src/main.rs".toList ∧
      oneSourceSurvey.listing (some "src/*.rs") = .ok ([], false) ∧
      ∃ pages, Paged (firstByte.FindCall (some "src/*.rs") ([], false)) FindResult.nextOffset
          pages none ∧
        ∀ page ∈ pages, "src/main.rs" ∉ page.paths := by
  have observed : oneSourceSurvey.listing (some "src/*.rs") = .ok ([], false) := by decide +kernel
  obtain ⟨page, paged, isPaths⟩ := find_one_page firstByte observed (by decide)
  have matched : Matches ("src/".toList ++ '*' :: (".rs".toList ++ []))
      ("src/".toList ++ ("main".toList ++ (".rs".toList ++ []))) :=
    .literal (by decide) (.star _ (.literal (by decide) .nil))
  exact ⟨oneSourceWalk_complete, rfl, rfl, matched, observed, [page], paged, by simp [isPaths]⟩

end CodeSpace.Runner
