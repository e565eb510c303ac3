import Mathlib.Data.List.Induction
import Elspeth.Lineage.Frames
import Elspeth.Semantics.Traced

/-!
# Closing what was opened

A token's path grows by a frame at each fork and expansion and shrinks when a group is closed.
In a well-nested history every group is closed inside the group it was opened in, except for
expansions that no closer ends and the release frames of collectors, which stay.

`frames_close_exactly` says what closing a group leaves: the path before the group was opened,
and for a row union also what was pushed since.  A merging closer that would have to skip the
frame of a group still open raises instead.
-/

namespace Elspeth.Lineage

open List

/-- An operation on the path of a token. -/
inductive Step where
  | push (frame : LineageFrame)
  | merge (kind : FrameKind) (groupId : String)
  | pop (groupId : String)
  | release (peers : List Path) (groupId releaseGroupId tokenId : String)

/-- The group whose frame an operation leaves innermost. -/
def Step.opens : Step → Option String
  | push frame => some frame.groupId
  | release _ _ releaseGroupId _ => some releaseGroupId
  | merge .. | pop .. => none

def Opens (steps : List Step) (groupId : String) : Prop :=
  ∃ step ∈ steps, step.opens = some groupId

variable (isReleaseGroup : String → Bool)

def Step.apply (path : Path) : Step → Except LineageError Path
  | push frame => .ok (path ++ [frame])
  | merge kind groupId => truncateAtCloserFrame path kind groupId isReleaseGroup
  | pop groupId => popForkFrame path groupId
  | release peers groupId releaseGroupId tokenId =>
    releasePath (path :: peers) groupId isReleaseGroup releaseGroupId tokenId

def run (steps : List Step) (path : Path) : Except LineageError Path :=
  steps.foldlM (Step.apply isReleaseGroup) path

/-- Every group is closed inside the group it was opened in.  Group ids are fresh, and only the
groups of collector releases count as such. -/
inductive WellNested : List Step → Prop
  | nil : WellNested []
  | expand {steps : List Step} (groupId memberKey : String) : WellNested steps →
      isReleaseGroup groupId = false → WellNested (steps ++ [.push ⟨.expand, groupId, memberKey⟩])
  | merge {outer inner : List Step} (frame : LineageFrame) : WellNested outer → WellNested inner →
      isReleaseGroup frame.groupId = false → ¬Opens inner frame.groupId →
      WellNested (outer ++ .push frame :: (inner ++ [.merge frame.kind frame.groupId]))
  | union {outer inner : List Step} (groupId branch : String) : WellNested outer →
      WellNested inner → isReleaseGroup groupId = false → ¬Opens inner groupId →
      WellNested (outer ++ .push ⟨.fork, groupId, branch⟩ :: (inner ++ [.pop groupId]))
  | collect {outer inner : List Step} (peers : List Path)
      (groupId memberKey releaseGroupId tokenId : String) :
      WellNested outer → WellNested inner → isReleaseGroup groupId = false →
      ¬Opens inner groupId → isReleaseGroup releaseGroupId = true →
      WellNested (outer ++ .push ⟨.expand, groupId, memberKey⟩ ::
        (inner ++ [.release peers groupId releaseGroupId tokenId]))

variable {isReleaseGroup} {path base above : Path} {frame : LineageFrame} {steps : List Step}

/-! ## Single closers -/

theorem innermostOwnFrame_concat (path : Path) (last : LineageFrame) :
    innermostOwnFrame isReleaseGroup (path ++ [last]) =
      if isReleaseGroup last.groupId then innermostOwnFrame isReleaseGroup path
      else some (path, last) := by
  unfold innermostOwnFrame
  rw [reverse_concat, dropWhile_cons]
  cases isReleaseGroup last.groupId <;> simp

theorem exists_of_innermostOwnFrame
    (found : innermostOwnFrame isReleaseGroup path = some (base, frame)) :
    ∃ above, path = base ++ frame :: above ∧ ∀ skipped ∈ above, isReleaseGroup skipped.groupId := by
  induction path using reverseRecOn with
  | nil => cases found
  | append_singleton path last ih =>
    rw [innermostOwnFrame_concat] at found
    split at found
    next released =>
      obtain ⟨above, rfl, skips⟩ := ih found
      exact ⟨above ++ [last], by simp, by simpa [or_imp, forall_and] using ⟨skips, released⟩⟩
    · cases found
      exact ⟨[], rfl, nofun⟩

variable {groupId : String} {final : Path}

/-- A merging closer skips only release frames. -/
theorem truncateAtCloserFrame_ok {kind : FrameKind}
    (closed : truncateAtCloserFrame path kind groupId isReleaseGroup = .ok base) :
    ∃ frame above, path = base ++ frame :: above ∧ frame.kind = kind ∧ frame.groupId = groupId ∧
      ∀ skipped ∈ above, isReleaseGroup skipped.groupId := by
  unfold truncateAtCloserFrame at closed
  split at closed
  · cases closed
  next innermost last =>
    split at closed
    next own =>
      obtain ⟨below, rfl⟩ := getLast?_eq_some_iff.mp last
      rw [dropLast_concat] at closed
      cases closed
      exact ⟨innermost, [], rfl, own.1, own.2, nofun⟩
    · split at closed
      · cases closed
      next below frame found =>
        obtain ⟨above, whole, skips⟩ := exists_of_innermostOwnFrame found
        split at closed
        next own =>
          cases closed
          exact ⟨frame, above, whole, own.1, own.2, skips⟩
        · split at closed <;> cases closed

section

variable (own : isReleaseGroup frame.groupId = false)
include own

/-- The own frame of a path is one that is not a release, or one above it. -/
theorem innermostOwnFrame_above (above : Path) :
    (above.all fun later => isReleaseGroup later.groupId) = true ∧
        innermostOwnFrame isReleaseGroup (path ++ frame :: above) = some (path, frame) ∨
      (above.all fun later => isReleaseGroup later.groupId) = false ∧ ∃ below later,
        innermostOwnFrame isReleaseGroup (path ++ frame :: above) = some (below, later) ∧
          frame ∈ below ∧ later ∈ above := by
  induction above using reverseRecOn with
  | nil =>
    rw [innermostOwnFrame_concat, own]
    exact .inl ⟨rfl, rfl⟩
  | append_singleton above last ih =>
    rw [← cons_append, ← append_assoc, innermostOwnFrame_concat]
    cases released : isReleaseGroup last.groupId with
    | false => exact .inr ⟨by simp [released], _, last, rfl, by simp, by simp⟩
    | true =>
      rcases ih with ⟨all, found⟩ | ⟨blocked, below, later, found, mem, listed⟩
      · exact .inl ⟨by simp [all, released], found⟩
      · exact .inr ⟨by simp [blocked], below, later, found, mem, mem_append_left _ listed⟩

/-- A merging closer ends its own group if only release frames lie above, and raises if another
frame does. -/
theorem truncateAtCloserFrame_own (fresh : ∀ later ∈ above, later.groupId ≠ frame.groupId) :
    truncateAtCloserFrame (path ++ frame :: above) frame.kind frame.groupId isReleaseGroup =
      if above.all fun later => isReleaseGroup later.groupId then .ok path
      else .error (.unclosedScope frame.groupId) := by
  unfold truncateAtCloserFrame
  cases above using reverseRecOn with
  | nil => simp
  | append_singleton above last =>
    have apart : last.groupId ≠ frame.groupId := fresh last (by simp)
    have innermost : (path ++ frame :: (above ++ [last])).getLast? = some last := by
      rw [← cons_append, ← append_assoc, getLast?_concat]
    simp only [innermost, apart, and_false, if_false]
    rcases innermostOwnFrame_above own (above ++ [last]) with
      ⟨all, found⟩ | ⟨blocked, below, later, found, mem, listed⟩
    · rw [found, all]
      simp
    · rw [found, blocked]
      simp only [fresh later listed, and_false, if_false, Bool.false_eq_true]
      exact if_pos (any_eq_true.mpr ⟨frame, mem, by simp⟩)

theorem eq_of_truncateAtCloserFrame (fresh : ∀ later ∈ above, later.groupId ≠ frame.groupId)
    (closed : truncateAtCloserFrame (path ++ frame :: above) frame.kind frame.groupId
      isReleaseGroup = .ok base) : base = path := by
  rw [truncateAtCloserFrame_own own fresh] at closed
  split at closed
  · cases closed
    rfl
  · cases closed

end

theorem releasePath_ok {peers : List Path} {releaseGroupId tokenId : String}
    (released : releasePath (path :: peers) groupId isReleaseGroup releaseGroupId tokenId =
      .ok final) :
    ∃ base, truncateAtCloserFrame path .expand groupId isReleaseGroup = .ok base ∧
      final = base ++ [⟨.expand, releaseGroupId, tokenId⟩] := by
  obtain ⟨base, truncated, rest⟩ := Semantics.bind_eq_ok.mp released
  obtain ⟨popped, -, shared⟩ := Semantics.bind_eq_ok.mp rest
  split at shared
  · cases shared
    exact ⟨base, truncated, rfl⟩
  · cases shared

/-! ## Whole histories -/

theorem run_concat {last : Step} (ran : run isReleaseGroup (steps ++ [last]) path = .ok final) :
    ∃ before, run isReleaseGroup steps path = .ok before ∧
      last.apply isReleaseGroup before = .ok final := by
  unfold run at ran
  rw [foldlM_append] at ran
  obtain ⟨before, ranBefore, ranLast⟩ := Semantics.bind_eq_ok.mp ran
  simp only [foldlM_cons, foldlM_nil, bind_pure] at ranLast
  exact ⟨before, ranBefore, ranLast⟩

/-- A history that opens a group and closes it again: the path before, and the path its closer
met. -/
theorem run_scope {outer inner : List Step} {closer : Step}
    (ran : run isReleaseGroup (outer ++ .push frame :: (inner ++ [closer])) path = .ok final) :
    ∃ before met, run isReleaseGroup outer path = .ok before ∧
      run isReleaseGroup inner (before ++ [frame]) = .ok met ∧
      closer.apply isReleaseGroup met = .ok final := by
  rw [← cons_append, ← append_assoc] at ran
  obtain ⟨met, ranMet, closed⟩ := run_concat ran
  unfold run at ranMet
  rw [foldlM_append] at ranMet
  obtain ⟨before, ranOuter, ranInner⟩ := Semantics.bind_eq_ok.mp ranMet
  exact ⟨before, met, ranOuter, ranInner, closed⟩

theorem Opens.mono {more : List Step} (opens : Opens steps groupId) (subset : steps ⊆ more) :
    Opens more groupId :=
  opens.imp fun _ found => ⟨subset found.1, found.2⟩

theorem ne_of_not_opens (fresh : ¬Opens steps frame.groupId)
    (within : ∀ later ∈ above, later.kind = .expand ∧ Opens steps later.groupId) :
    ∀ later ∈ above, later.groupId ≠ frame.groupId := by
  intro later listed same
  exact fresh (same ▸ (within later listed).2)

theorem kind_ne_fork (within : ∀ later ∈ above, later.kind = .expand ∧ Opens steps later.groupId) :
    ∀ later ∈ above, later.kind ≠ .fork := by
  intro later listed fork
  cases fork.symm.trans (within later listed).1

/-- What a well-nested history leaves above the path it began with: frames of expansions. -/
theorem WellNested.leaves (nested : WellNested isReleaseGroup steps)
    (ran : run isReleaseGroup steps path = .ok final) :
    ∃ above, final = path ++ above ∧
      ∀ frame ∈ above, frame.kind = .expand ∧ Opens steps frame.groupId := by
  induction nested generalizing path final with
  | nil =>
    cases ran
    exact ⟨[], (append_nil _).symm, nofun⟩
  | expand groupId memberKey _ _ ih =>
    obtain ⟨before, ranBefore, pushed⟩ := run_concat ran
    obtain ⟨above, rfl, left⟩ := ih ranBefore
    cases pushed
    refine ⟨above ++ [⟨.expand, groupId, memberKey⟩], append_assoc .., ?_⟩
    intro frame listed
    rcases mem_append.mp listed with listed | listed
    · exact (left frame listed).imp_right fun opens => opens.mono (by simp)
    · cases mem_singleton.mp listed
      exact ⟨rfl, .push _, by simp, rfl⟩
  | merge frame _ _ own fresh outerLeaves innerLeaves =>
    obtain ⟨before, met, ranOuter, ranInner, closed⟩ := run_scope ran
    obtain ⟨above, rfl, left⟩ := outerLeaves ranOuter
    obtain ⟨inside, rfl, within⟩ := innerLeaves ranInner
    rw [append_assoc _ [frame]] at closed
    refine ⟨above, eq_of_truncateAtCloserFrame own (ne_of_not_opens fresh within) closed, ?_⟩
    exact fun later listed => (left later listed).imp_right fun opens => opens.mono (by simp)
  | union groupId branch _ _ own fresh outerLeaves innerLeaves =>
    obtain ⟨before, met, ranOuter, ranInner, closed⟩ := run_scope ran
    obtain ⟨above, rfl, left⟩ := outerLeaves ranOuter
    obtain ⟨inside, rfl, within⟩ := innerLeaves ranInner
    rw [append_assoc _ [_]] at closed
    cases (popForkFrame_own rfl (kind_ne_fork within)).symm.trans closed
    refine ⟨above ++ inside, append_assoc .., ?_⟩
    intro later listed
    rcases mem_append.mp listed with listed | listed
    · exact (left later listed).imp_right fun opens => opens.mono (by simp)
    · refine (within later listed).imp_right fun opens => opens.mono ?_
      intro step found
      simp [found]
  | collect peers groupId memberKey releaseGroupId tokenId _ _ own fresh _ outerLeaves
    innerLeaves =>
    obtain ⟨before, met, ranOuter, ranInner, closed⟩ := run_scope ran
    obtain ⟨above, rfl, left⟩ := outerLeaves ranOuter
    obtain ⟨inside, rfl, within⟩ := innerLeaves ranInner
    obtain ⟨base, truncated, rfl⟩ := releasePath_ok closed
    rw [append_assoc _ [_]] at truncated
    cases eq_of_truncateAtCloserFrame own (ne_of_not_opens fresh within) truncated
    refine ⟨above ++ [⟨.expand, releaseGroupId, tokenId⟩], append_assoc .., ?_⟩
    intro later listed
    rcases mem_append.mp listed with listed | listed
    · exact (left later listed).imp_right fun opens => opens.mono (by simp)
    · cases mem_singleton.mp listed
      exact ⟨rfl, .release peers groupId releaseGroupId tokenId, by simp, rfl⟩

/-- When a well-nested history has run inside a group, its frame lies where it was pushed.
A merging closer of the group returns the path the group was opened on, or raises if the frame
of another group is still open; a row union returns that path and what was pushed since.  On
any path a merging closer drops release frames only, and a row union takes out the innermost
FORK frame of its group only, or raises if there is none. -/
theorem frames_close_exactly {inner : List Step} {final : Path}
    (nested : WellNested isReleaseGroup inner) (own : isReleaseGroup frame.groupId = false)
    (fresh : ¬Opens inner frame.groupId)
    (ran : run isReleaseGroup inner (path ++ [frame]) = .ok final) :
    (∃ above, final = path ++ frame :: above ∧
      truncateAtCloserFrame final frame.kind frame.groupId isReleaseGroup =
        (if above.all fun later => isReleaseGroup later.groupId then .ok path
        else .error (.unclosedScope frame.groupId)) ∧
      (frame.kind = .fork →
        innermostForkFrame final = some frame ∧
        popForkFrame final frame.groupId = .ok (path ++ above))) ∧
    (∀ (any base : Path) (kind : FrameKind) (groupId : String),
      truncateAtCloserFrame any kind groupId isReleaseGroup = .ok base →
      ∃ closed above, any = base ++ closed :: above ∧ closed.kind = kind ∧
        closed.groupId = groupId ∧ ∀ skipped ∈ above, isReleaseGroup skipped.groupId) ∧
    ∀ (any : Path) (groupId : String),
      (∃ below closed above, any = below ++ closed :: above ∧
        (closed.kind = .fork ∧ closed.groupId = groupId) ∧
        (∀ later ∈ above, ¬(later.kind = .fork ∧ later.groupId = groupId)) ∧
        popForkFrame any groupId = .ok (below ++ above)) ∨
      (∀ other ∈ any, ¬(other.kind = .fork ∧ other.groupId = groupId)) ∧
        popForkFrame any groupId = .error (.noMatchingFrame groupId) := by
  obtain ⟨above, whole, within⟩ := nested.leaves ran
  rw [append_assoc, singleton_append] at whole
  subst whole
  refine ⟨⟨above, rfl, truncateAtCloserFrame_own own (ne_of_not_opens fresh within), ?_⟩,
    fun _ _ _ _ => truncateAtCloserFrame_ok, popForkFrame_cases⟩
  intro fork
  refine ⟨?_, popForkFrame_own fork (kind_ne_fork within)⟩
  unfold innermostForkFrame
  rw [reverse_append, reverse_cons, append_assoc, find?_append,
    find?_eq_none.mpr (by simpa using kind_ne_fork within)]
  simp [fork]

/-- Inside the branch of a fork, a row is expanded and a scope is collected. -/
theorem frames_close_exactly_branch :
    let fork : LineageFrame := ⟨.fork, "f", "left"⟩
    let inner : List Step := [.push ⟨.expand, "e", "0"⟩, .push ⟨.expand, "s", "0"⟩,
      .release [] "s" "r" "t"]
    let final : Path := [fork, ⟨.expand, "e", "0"⟩, ⟨.expand, "r", "t"⟩]
    run (· = "r") inner [fork] = .ok final ∧
      truncateAtCloserFrame final .fork "f" (· = "r") = .error (.unclosedScope "f") ∧
      popForkFrame final "f" = .ok [⟨.expand, "e", "0"⟩, ⟨.expand, "r", "t"⟩] := by
  intro fork inner final
  have ran : run (· = "r") inner ([] ++ [fork]) = .ok final := by decide +kernel
  have nested : WellNested (· = "r") inner :=
    .collect [] "s" "0" "r" "t" (.expand "e" "0" .nil rfl) .nil rfl nofun rfl
  obtain ⟨⟨above, whole, truncated, popped⟩, -⟩ :=
    frames_close_exactly nested rfl (by simp [Opens, inner, Step.opens, fork]) ran
  cases cons.inj whole |>.2
  exact ⟨ran, truncated, (popped rfl).2⟩

end Elspeth.Lineage
