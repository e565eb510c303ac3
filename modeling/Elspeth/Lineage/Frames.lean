import Elspeth.Landscape.Schema

/-!
# Lineage paths

A token's lineage is a stack of frames, outermost first.  A fork pushes one frame on each
branch; the branch and the group of a token are read off its innermost fork frame.  A
scope pushes one frame on each member of an expansion.  A collector closes the scope of
its members: it truncates their path below the scope's frame and pushes a frame of its
release group, which no closer ever removes.
-/

namespace Elspeth.Lineage

open List

abbrev Path : Type := List LineageFrame

/-- The innermost FORK frame. -/
def innermostForkFrame (path : Path) : Option LineageFrame :=
  path.reverse.find? fun frame => frame.kind = .fork

/-- The branch of a path: the member of its innermost FORK frame. -/
def pathBranchName (path : Path) : Option String :=
  (innermostForkFrame path).map LineageFrame.memberKey

/-- The fork group of a path: the group of its innermost FORK frame. -/
def pathForkGroupId (path : Path) : Option String :=
  (innermostForkFrame path).map LineageFrame.groupId

/-! ## Closing a frame -/

/-- What the lineage code raises. -/
inductive LineageError where
  | unclosedScope (groupId : String)
  | noMatchingFrame (groupId : String)
  | unsharedPath (groupId : String)
  deriving DecidableEq, Repr

/-- The first frame, from the inside, that is not a collector's release, with the path
below it. -/
def innermostOwnFrame (isReleaseGroup : String → Bool) (path : Path) :
    Option (Path × LineageFrame) :=
  match path.reverse.dropWhile fun frame => isReleaseGroup frame.groupId with
  | [] => none
  | frame :: below => some (below.reverse, frame)

/-- What a merging closer leaves of a path: everything below its own frame.  Only release
frames may lie above that frame. -/
def truncateAtCloserFrame (path : Path) (kind : FrameKind) (groupId : String)
    (isReleaseGroup : String → Bool) : Except LineageError Path :=
  match path.getLast? with
  | none => .error (.noMatchingFrame groupId)
  | some innermost =>
    if innermost.kind = kind ∧ innermost.groupId = groupId then .ok path.dropLast
    else
      match innermostOwnFrame isReleaseGroup path with
      | none => .error (.noMatchingFrame groupId)
      | some (below, frame) =>
        if frame.kind = kind ∧ frame.groupId = groupId then .ok below
        else if below.any fun deeper => deeper.kind = kind ∧ deeper.groupId = groupId then
          .error (.unclosedScope groupId)
        else .error (.noMatchingFrame groupId)

/-- The path of a token a collector releases: the members' common path below the scope,
and a frame of the release group. -/
def releasePath (members : List Path) (groupId : String) (isReleaseGroup : String → Bool)
    (releaseGroupId tokenId : String) : Except LineageError Path :=
  match members with
  | [] => .error (.noMatchingFrame groupId)
  | first :: rest => do
      let basePath ← truncateAtCloserFrame first .expand groupId isReleaseGroup
      let popped ← rest.mapM fun member => truncateAtCloserFrame member .expand groupId
        isReleaseGroup
      if popped.all (· = basePath) then pure (basePath ++ [⟨.expand, releaseGroupId, tokenId⟩])
      else .error (.unsharedPath groupId)

/-- Remove the FORK frame of a group, searched from the inside, wherever it sits. -/
def popForkFrame (path : Path) (groupId : String) : Except LineageError Path :=
  let own (frame : LineageFrame) : Bool := frame.kind = .fork ∧ frame.groupId = groupId
  if path.any own then .ok (path.reverse.eraseP own).reverse else .error (.noMatchingFrame groupId)

/-- The pop takes out the innermost FORK frame of its group and nothing else, and raises on a
path without one. -/
theorem popForkFrame_cases (path : Path) (groupId : String) :
    (∃ below frame above, path = below ++ frame :: above ∧
      (frame.kind = .fork ∧ frame.groupId = groupId) ∧
      (∀ later ∈ above, ¬(later.kind = .fork ∧ later.groupId = groupId)) ∧
      popForkFrame path groupId = .ok (below ++ above)) ∨
    (∀ frame ∈ path, ¬(frame.kind = .fork ∧ frame.groupId = groupId)) ∧
      popForkFrame path groupId = .error (.noMatchingFrame groupId) := by
  unfold popForkFrame
  by_cases present : ∃ frame ∈ path, frame.kind = .fork ∧ frame.groupId = groupId
  · obtain ⟨_, listed, own⟩ := present
    obtain ⟨frame, inner, outer, unlike, own', split, erased⟩ :=
      exists_of_eraseP (p := fun frame => frame.kind = .fork ∧ frame.groupId = groupId)
        (mem_reverse.mpr listed) (decide_eq_true own)
    refine .inl ⟨outer.reverse, frame, inner.reverse, ?_, of_decide_eq_true own', ?_, ?_⟩
    · rw [← reverse_reverse path, split]
      simp
    · intro later above
      simpa using unlike later (mem_reverse.mp above)
    · rw [if_pos (any_eq_true.mpr ⟨_, listed, decide_eq_true own⟩), erased, reverse_append]
  · have absent : ∀ frame ∈ path, ¬(frame.kind = .fork ∧ frame.groupId = groupId) :=
      fun frame listed own => present ⟨frame, listed, own⟩
    exact .inr ⟨absent, if_neg (by simpa using absent)⟩

/-- A group pops the FORK frame no other FORK frame lies above; all other frames stay. -/
theorem popForkFrame_own {path above : Path} {frame : LineageFrame} (fork : frame.kind = .fork)
    (inner : ∀ later ∈ above, later.kind ≠ .fork) :
    popForkFrame (path ++ frame :: above) frame.groupId = .ok (path ++ above) := by
  have kept : ∀ later ∈ above.reverse,
      ¬decide (later.kind = .fork ∧ later.groupId = frame.groupId) = true := by
    intro later listed
    simp [inner later (mem_reverse.mp listed)]
  unfold popForkFrame
  rw [if_pos (by simp [fork]), reverse_append, reverse_cons, append_assoc,
    eraseP_append_right _ kept, cons_append, eraseP_cons_of_pos (by simp [fork])]
  simp

/-- The innermost FORK frame is the one that its group pops. -/
theorem popForkFrame_innermost {path : Path} {frame : LineageFrame}
    (innermost : innermostForkFrame path = some frame) :
    ∃ below above, path = below ++ frame :: above ∧
      popForkFrame path frame.groupId = .ok (below ++ above) := by
  obtain ⟨fork, inner, outer, split, unlike⟩ := find?_eq_some_iff_append.mp innermost
  have whole : path = outer.reverse ++ frame :: inner.reverse := by
    rw [← reverse_reverse path, split]
    simp
  refine ⟨outer.reverse, inner.reverse, whole, ?_⟩
  rw [whole]
  apply popForkFrame_own (of_decide_eq_true fork)
  intro later listed
  simpa using unlike later (mem_reverse.mp listed)

end Elspeth.Lineage
