import Mathlib.Data.List.Chain
import Mathlib.Data.List.Perm.Subperm

/-! Depth-first search that keeps what it is visiting, what it has visited and its path, and notes a cycle where it
meets again what it is visiting. It notes one just when there is one; where it notes none, what it finished later never
follows from what it finished earlier. -/
namespace Applik8s.Lib.DepthFirst
open List

structure Search (α : Type) where
  visiting : List α := []
  visited : List α := []
  path : List α := []
  cycles : List (List α) := []

variable {α : Type} (successors : α → List α)

/-- A visit, with no more visits within each other than the fuel. -/
def visit [DecidableEq α] : Nat → Search α → α → Option (Search α)
  | 0, _, _ => none
  | fuel + 1, search, node =>
    if node ∈ search.visited then some search
    else if node ∈ search.visiting then
      some { search with cycles := search.cycles ++ [search.path.drop (search.path.idxOf node) ++ [node]] }
    else
      let entered := { search with visiting := node :: search.visiting, path := search.path ++ [node] }
      ((successors node).foldlM (visit fuel) entered).map fun left =>
        { left with path := left.path.dropLast, visiting := left.visiting.erase node, visited := node :: left.visited }

def Leads (earlier later : α) : Prop := later ∈ successors earlier

def Settled : List α → Prop
  | [] => True
  | node :: rest => successors node ⊆ rest ∧ Settled rest

structure Search.Sound (search : Search α) : Prop where
  path : search.path = search.visiting.reverse
  distinct : search.visiting.Nodup
  chain : search.visiting.IsChain fun later earlier => Leads successors earlier later
  cyclic : search.cycles ≠ [] → ∃ node, Relation.TransGen (Leads successors) node node
  settled : search.cycles = [] → Settled successors search.visited

structure Visited (before after : Search α) (nodes : List α) : Prop where
  sound : after.Sound successors
  visiting : after.visiting = before.visiting
  visited : before.visited ⊆ after.visited
  cycles : after.cycles = [] → before.cycles = [] ∧ nodes ⊆ after.visited

variable {successors} {node head : α}

private theorem reaches_head (among : node ∈ head :: rest)
    (chain : (head :: rest).IsChain fun later earlier => Leads successors earlier later) :
    Relation.ReflTransGen (Leads successors) node head := by
  induction rest generalizing head with
  | nil => rw [mem_singleton.mp among]
  | cons next rest ih =>
    obtain ⟨leads, chain⟩ := isChain_cons_cons.mp chain
    rcases mem_cons.mp among with rfl | later
    · exact .refl
    · exact (ih later chain).tail leads

variable [DecidableEq α]

private theorem visitAll_spec (nodes : List α) (sound : search.Sound successors)
    (each : ∀ node ∈ nodes, ∀ before : Search α, before.Sound successors → before.visiting = search.visiting → ∃ after, visit successors fuel before node = some after ∧ Visited successors before after [node])
    : ∃ after, nodes.foldlM (visit successors fuel) search = some after ∧ Visited successors search after nodes := by
  induction nodes generalizing search with
  | nil => exact ⟨search, rfl, sound, rfl, List.Subset.refl _, fun none => ⟨none, nil_subset _⟩⟩
  | cons node rest ih =>
    obtain ⟨_, visits, first⟩ := each node mem_cons_self search sound rfl
    obtain ⟨after, all, others⟩ := ih first.sound fun next among before sound same =>
      each next (mem_cons_of_mem _ among) before sound (same.trans first.visiting)
    refine ⟨after, ?_, others.sound, others.visiting.trans first.visiting,
      List.Subset.trans first.visited others.visited, fun none => ?_⟩
    · rw [foldlM_cons, visits]
      exact all
    obtain ⟨fewer, rest⟩ := others.cycles none
    obtain ⟨fewest, here⟩ := first.cycles fewer
    exact ⟨fewest, cons_subset.mpr ⟨others.visited (here mem_cons_self), rest⟩⟩

theorem visit_spec (closed : ∀ node ∈ whole, successors node ⊆ whole) (sound : search.Sound successors)
    (known : node ∈ whole) (within : search.visiting ⊆ whole)
    (leads : ∀ last ∈ search.visiting.head?, Leads successors last node)
    (enough : whole.length < fuel + search.visiting.length) :
    ∃ after, visit successors fuel search node = some after ∧ Visited successors search after [node] := by
  induction fuel generalizing search node with
  | zero =>
    have fewer := (subperm_of_subset sound.distinct within).length_le
    omega
  | succ fuel ih =>
    unfold visit
    split
    next done =>
      exact ⟨search, rfl, sound, rfl, List.Subset.refl _, fun none => ⟨none, cons_subset.mpr ⟨done, nil_subset _⟩⟩⟩
    split
    next met =>
      refine ⟨_, rfl, ⟨sound.path, sound.distinct, sound.chain, fun _ => ?_, fun none => ?_⟩, rfl,
        List.Subset.refl _, fun none => ?_⟩
      · cases visiting : search.visiting with
        | nil =>
          rw [visiting] at met
          exact absurd met not_mem_nil
        | cons last rest =>
          refine ⟨node, .tail' (reaches_head (visiting ▸ met) (visiting ▸ sound.chain)) ?_⟩
          exact leads last (by rw [visiting]; rfl)
      · exact absurd none (append_ne_nil_of_right_ne_nil _ (cons_ne_nil _ _))
      · exact absurd none (append_ne_nil_of_right_ne_nil _ (cons_ne_nil _ _))
    next fresh unmet =>
      have entered : Search.Sound successors
          { search with visiting := node :: search.visiting, path := search.path ++ [node] } :=
        ⟨by rw [reverse_cons, sound.path], nodup_cons.mpr ⟨unmet, sound.distinct⟩,
          isChain_cons.mpr ⟨leads, sound.chain⟩, sound.cyclic, sound.settled⟩
      obtain ⟨after, visits, rest⟩ := visitAll_spec (successors node) entered fun next among before sound same => by
          refine ih sound (closed node known among) ?_ ?_ ?_
          · rw [same]
            exact cons_subset.mpr ⟨known, within⟩
          · rw [same]
            rintro _ ⟨⟩
            exact among
          · rw [same, length_cons]
            omega
      have visiting : after.visiting.erase node = search.visiting := by
        rw [rest.visiting, erase_cons_head]
      refine ⟨⟨after.visiting.erase node, node :: after.visited, after.path.dropLast, after.cycles⟩,
        by dsimp only; rw [visits]; rfl, ⟨?_, ?_, ?_, rest.sound.cyclic, fun none => ?_⟩, visiting,
        fun _ among => mem_cons_of_mem _ (rest.visited among),
        fun none => ⟨(rest.cycles none).1, cons_subset.mpr ⟨mem_cons_self, nil_subset _⟩⟩⟩
      · rw [visiting, rest.sound.path, rest.visiting, reverse_cons, dropLast_concat]
      · exact visiting ▸ sound.distinct
      · exact visiting ▸ sound.chain
      · exact ⟨(rest.cycles none).2, rest.sound.settled none⟩

theorem search_spec (closed : ∀ node ∈ whole, successors node ⊆ whole) (known : nodes ⊆ whole) :
    ∃ after, nodes.foldlM (visit successors (whole.length + 1)) {} = some after ∧
      (after.cycles ≠ [] → ∃ node, Relation.TransGen (Leads successors) node node) ∧
      (after.cycles = [] → Settled successors after.visited ∧ nodes ⊆ after.visited) := by
  have start : Search.Sound successors ({} : Search α) :=
    ⟨rfl, nodup_nil, .nil, fun some => absurd rfl some, fun _ => trivial⟩
  have each : ∀ node ∈ nodes, ∀ before : Search α, before.Sound successors → before.visiting = [] →
      ∃ after, visit successors (whole.length + 1) before node = some after ∧
        Visited successors before after [node] := by
    intro node among before sound same
    refine visit_spec closed sound (known among) ?_ ?_ (by omega)
    · rw [same]
      exact nil_subset _
    · rw [same]
      exact nofun
  obtain ⟨after, searches, rest⟩ := visitAll_spec _ start each
  exact ⟨after, searches, rest.sound.cyclic, fun none => ⟨rest.sound.settled none, (rest.cycles none).2⟩⟩

def rank (visited : List α) (node : α) : Nat := visited.reverse.idxOf node

theorem Settled.rank_lt (settled : Settled successors visited) (among : node ∈ visited)
    (leads : Leads successors node succ) : succ ∈ visited ∧ rank visited succ < rank visited node := by
  induction visited with
  | nil => exact absurd among not_mem_nil
  | cons first rest ih =>
    unfold rank
    rw [reverse_cons]
    by_cases earlier : node ∈ rest
    · obtain ⟨later, less⟩ := ih settled.2 earlier
      refine ⟨mem_cons_of_mem _ later, ?_⟩
      rw [idxOf_append_of_mem (mem_reverse.mpr later), idxOf_append_of_mem (mem_reverse.mpr earlier)]
      exact less
    obtain rfl := (mem_cons.mp among).resolve_right earlier
    have later := settled.1 leads
    refine ⟨mem_cons_of_mem _ later, ?_⟩
    rw [idxOf_append_of_mem (mem_reverse.mpr later),
      idxOf_append_of_notMem (fun before => earlier (mem_reverse.mp before))]
    have less := idxOf_lt_length_iff.mpr (mem_reverse.mpr later)
    omega

end Applik8s.Lib.DepthFirst
