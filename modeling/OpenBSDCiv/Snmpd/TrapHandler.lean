import OpenBSDCiv.Lib.RbTree.Order
import OpenBSDCiv.Snmpd.Appl.Lemmas.Find

namespace TrapHandler

open Appl List

structure TrapCmd where
  oid : Oid
  argv : List String
  deriving DecidableEq

-- the comparison may set `cmd_maybe` of the first command, which only matters for the key of a lookup
def trapcmdCmp (oid : Oid) (maybe : Option TrapCmd) (cmd2 : TrapCmd) : Int × Option TrapCmd :=
  let ret := oberOidCmp oid cmd2.oid
  if ret = 2 then (1, some cmd2) else (ret, maybe)

def compare (cmd1 cmd2 : TrapCmd) : Int :=
  (trapcmdCmp cmd1.oid none cmd2).1

def trapcmdFind (oid : Oid) (maybe : Option TrapCmd) : RbTree TrapCmd → Option TrapCmd × Option TrapCmd
  | .nil => (none, maybe)
  | .node _ l tmp r =>
    let (comp, maybe) := trapcmdCmp oid maybe tmp
    if comp < 0 then
      trapcmdFind oid maybe l
    else if comp > 0 then
      trapcmdFind oid maybe r
    else
      (some tmp, maybe)

def trapcmdLookup (oid : Oid) (tree : RbTree TrapCmd) : Option TrapCmd :=
  let (res, maybe) := trapcmdFind oid none tree
  res.or maybe

def trapcmdAdd (tree : RbTree TrapCmd) (cmd : TrapCmd) : Bool × RbTree TrapCmd :=
  let (old, tree) := tree.insert compare cmd
  (old ≠ none, tree)

def trapcmdTree (cmds : List TrapCmd) : RbTree TrapCmd :=
  cmds.foldl (fun tree cmd => (trapcmdAdd tree cmd).2) .nil

-- of the commands for one identifier the tree keeps the one that was added first
def registered (cmds : List TrapCmd) : List TrapCmd :=
  cmds.filter fun cmd => cmds.find? (fun cmd' => cmd'.oid = cmd.oid) = some cmd

def MostSpecific (cmds : List TrapCmd) (oid : Oid) : Option TrapCmd → Prop
  | none => ∀ cmd ∈ cmds, ¬cmd.oid <+: oid
  | some cmd => cmd ∈ cmds ∧ cmd.oid <+: oid ∧ ∀ cmd' ∈ cmds, cmd'.oid <+: oid → cmd'.oid <+: cmd.oid

-- a node whose element is `above` has `cmd` in its left subtree
def LeftOf (cmd above : TrapCmd) : RbTree TrapCmd → Prop
  | .nil => False
  | .node _ l tmp r => tmp = above ∧ cmd ∈ l.toList ∨ LeftOf cmd above l ∨ LeftOf cmd above r

-- the commands that a search for `oid` goes by
def path (oid : Oid) : RbTree TrapCmd → List TrapCmd
  | .nil => []
  | .node _ l cmd r => cmd :: if oid < cmd.oid then path oid l else if cmd.oid < oid then path oid r else []

theorem trapcmdCmp_spec (oid : Oid) (maybe : Option TrapCmd) (cmd : TrapCmd)
    : ((trapcmdCmp oid maybe cmd).1 < 0 ↔ oid < cmd.oid) ∧ (0 < (trapcmdCmp oid maybe cmd).1 ↔ cmd.oid < oid)
      ∧ (trapcmdCmp oid maybe cmd).2 = if cmd.oid <+: oid ∧ cmd.oid < oid then some cmd else maybe := by
  have hcmp := oberOidCmp_compared oid cmd.oid
  have hle : cmd.oid <+: oid → cmd.oid ≤ oid := Subtree.le_of_isPrefix
  have hge : oid <+: cmd.oid → oid ≤ cmd.oid := Subtree.le_of_isPrefix
  unfold trapcmdCmp
  generalize oberOidCmp oid cmd.oid = ret at hcmp
  cases hcmp <;> grind

theorem compare_isOrder : RbTree.IsOrder TrapCmd.oid compare where
  zero_iff a b := by grind [compare, trapcmdCmp_spec a.oid none b]
  neg_iff a b := (trapcmdCmp_spec a.oid none b).1.trans (trapcmdCmp_spec b.oid none a).2.1.symm
  trans a b c hab hbc := by
    rw [compare, (trapcmdCmp_spec _ _ _).1] at hab hbc ⊢
    exact hab.trans hbc

theorem trapcmdTree_ordered (cmds : List TrapCmd) : (trapcmdTree cmds).Ordered compare := by
  apply List.foldlRecOn
  . exact Pairwise.nil
  intro tree htree cmd _
  unfold trapcmdAdd
  rcases RbTree.insert_cases compare_isOrder cmd htree with ⟨_, _, _, heq⟩ | ⟨_, tree', heq, hordered, _⟩
  . rw [heq]
    exact htree
  . rw [heq]
    exact hordered

theorem mem_trapcmdTree (cmds : List TrapCmd) (cmd : TrapCmd)
    : cmd ∈ (trapcmdTree cmds).toList ↔ cmds.find? (fun cmd' => cmd'.oid = cmd.oid) = some cmd := by
  induction cmds using reverseRecOn generalizing cmd with
  | nil => simp [trapcmdTree]
  | append_singleton cmds new ih =>
    have htree : trapcmdTree (cmds ++ [new]) = (trapcmdAdd (trapcmdTree cmds) new).2 := foldl_append
    rw [htree, trapcmdAdd, find?_append, find?_singleton]
    rcases RbTree.insert_cases compare_isOrder new (trapcmdTree_ordered cmds)
      with ⟨old, hold, hoid, heq⟩ | ⟨hnew, tree', heq, _, hperm⟩
    . rw [heq, ih]
      rw [ih] at hold
      by_cases hcmd : new.oid = cmd.oid
      . rw [← hcmd, ← hoid, hold]
        rfl
      . simp [hcmd]
    . rw [heq, hperm.mem_iff, mem_cons, ih]
      by_cases hcmd : new.oid = cmd.oid
      . have hnone : cmds.find? (fun cmd' => cmd'.oid = cmd.oid) = none := by
          cases hfind : cmds.find? (fun cmd' => cmd'.oid = cmd.oid) with
          | none => rfl
          | some old =>
            have hold : old.oid = cmd.oid := by simpa using find?_some hfind
            rw [← hold, ← ih] at hfind
            exact absurd (hold.trans hcmd.symm) (hnew old hfind)
        rw [hnone]
        simp [hcmd, eq_comm]
      . have hne : cmd ≠ new := fun heq => hcmd (congrArg TrapCmd.oid heq).symm
        simp [hcmd, hne]

theorem mem_registered (cmds : List TrapCmd) (cmd : TrapCmd)
    : cmd ∈ registered cmds ↔ cmd ∈ (trapcmdTree cmds).toList := by
  rw [mem_trapcmdTree, registered, mem_filter, decide_eq_true_iff]
  exact and_iff_right_of_imp mem_of_find?_eq_some

theorem path_subset (oid : Oid) (tree : RbTree TrapCmd) : path oid tree ⊆ tree.toList := by
  induction tree with
  | nil => exact nil_subset _
  | node red l cmd r ihl ihr => grind [path, RbTree.toList_node]

theorem mostSpecific_cons {cmd : TrapCmd} {cmds : List TrapCmd} {oid : Oid} {res : Option TrapCmd}
    (h : MostSpecific cmds oid res) (hnot : ¬cmd.oid <+: oid)
    : MostSpecific (cmd :: cmds) oid res := by
  cases res with
  | none => exact forall_mem_cons.mpr ⟨hnot, h⟩
  | some best => exact ⟨mem_cons_of_mem cmd h.1, h.2.1, forall_mem_cons.mpr ⟨fun hcmd => absurd hcmd hnot, h.2.2⟩⟩

theorem trapcmdFind_mostSpecific {tree : RbTree TrapCmd} (htree : tree.Ordered compare) (oid : Oid)
    (maybe : Option TrapCmd)
    : ∃ res, MostSpecific (path oid tree) oid res
      ∧ (trapcmdFind oid maybe tree).1.or (trapcmdFind oid maybe tree).2 = res.or maybe := by
  induction tree generalizing maybe with
  | nil => exact ⟨none, forall_mem_nil _, rfl⟩
  | node red l cmd r ihl ihr =>
    rw [RbTree.Ordered, RbTree.toList_node, pairwise_append, pairwise_cons] at htree
    rcases htree with ⟨hl, ⟨hcmd, hr⟩, _⟩
    obtain ⟨hneg, hpos, hset⟩ := trapcmdCmp_spec oid maybe cmd
    unfold trapcmdFind path
    dsimp only
    rw [hset]
    simp only [hneg, hpos]
    rcases lt_trichotomy oid cmd.oid with hlt | rfl | hlt
    . have hnot : ¬cmd.oid <+: oid := fun h => not_le_of_gt hlt (Subtree.le_of_isPrefix h)
      rcases ihl hl maybe with ⟨res, hres, heq⟩
      rw [if_pos hlt, if_pos hlt, if_neg fun h => hnot h.1]
      exact ⟨res, mostSpecific_cons hres hnot, heq⟩
    . exact ⟨some cmd, by simp [MostSpecific], by simp⟩
    rw [if_neg (not_lt_of_gt hlt), if_pos hlt, if_neg (not_lt_of_gt hlt), if_pos hlt]
    by_cases hpre : cmd.oid <+: oid
    . rw [if_pos ⟨hpre, hlt⟩]
      rcases ihr hr (some cmd) with ⟨_ | best, hres, heq⟩
      . exact ⟨some cmd, ⟨mem_cons_self, hpre, forall_mem_cons.mpr
          ⟨fun _ => prefix_rfl, fun cmd' hcmd' h => absurd h (hres cmd' hcmd')⟩⟩, heq⟩
      -- what the search goes by after a prefix is behind it
      have hbehind := (trapcmdCmp_spec _ _ _).1.mp (hcmd best (path_subset oid r hres.1))
      refine ⟨some best, ⟨mem_cons_of_mem cmd hres.1, hres.2.1, forall_mem_cons.mpr ⟨fun _ => ?_, hres.2.2⟩⟩, heq⟩
      rcases prefix_or_prefix_of_prefix hpre hres.2.1 with h | h
      . exact h
      . exact absurd (Subtree.le_of_isPrefix h) (not_le_of_gt hbehind)
    . rw [if_neg fun h => hpre h.1]
      rcases ihr hr maybe with ⟨res, hres, heq⟩
      exact ⟨res, mostSpecific_cons hres hpre, heq⟩

theorem LeftOf.mem {cmd above : TrapCmd} {tree : RbTree TrapCmd} (h : LeftOf cmd above tree)
    : cmd ∈ tree.toList ∧ above ∈ tree.toList := by
  induction tree with
  | nil => contradiction
  | node red l tmp r ihl ihr =>
    rw [RbTree.toList_node]
    rcases h with ⟨rfl, hl⟩ | h | h
    . exact ⟨mem_append_left _ hl, mem_append_right _ mem_cons_self⟩
    . exact ⟨mem_append_left _ (ihl h).1, mem_append_left _ (ihl h).2⟩
    . exact ⟨mem_append_right _ (mem_cons_of_mem _ (ihr h).1), mem_append_right _ (mem_cons_of_mem _ (ihr h).2)⟩

theorem LeftOf.lt {cmd above : TrapCmd} {tree : RbTree TrapCmd} (h : LeftOf cmd above tree)
    (htree : tree.Ordered compare)
    : cmd.oid < above.oid := by
  induction tree with
  | nil => contradiction
  | node red l tmp r ihl ihr =>
    rw [RbTree.Ordered, RbTree.toList_node, pairwise_append, pairwise_cons] at htree
    rcases htree with ⟨hl, ⟨_, hr⟩, hlr⟩
    rcases h with ⟨rfl, hcmd⟩ | h | h
    . exact (trapcmdCmp_spec _ none _).1.mp (hlr cmd hcmd tmp mem_cons_self)
    . exact ihl h hl
    . exact ihr h hr

theorem mem_path_iff {tree : RbTree TrapCmd} (htree : tree.Ordered compare) {oid : Oid} {cmd : TrapCmd}
    (hcmd : cmd ∈ tree.toList) (hle : cmd.oid ≤ oid)
    : cmd ∈ path oid tree ↔ ∀ above, LeftOf cmd above tree → oid < above.oid := by
  induction tree with
  | nil => simp at hcmd
  | node red l tmp r ihl ihr =>
    rw [RbTree.Ordered, RbTree.toList_node, pairwise_append, pairwise_cons] at htree
    rcases htree with ⟨hl, ⟨htmp, hr⟩, hlr⟩
    have hlt : ∀ a b, compare a b < 0 → a.oid < b.oid := fun a b => (trapcmdCmp_spec a.oid none b).1.mp
    have hne : ∀ a b, compare a b < 0 → a ≠ b := fun a b h heq => lt_irrefl _ (heq ▸ hlt a b h)
    rw [RbTree.toList_node, mem_append, mem_cons] at hcmd
    rcases hcmd with hcmd | rfl | hcmd
    . have hcmd' := hlr cmd hcmd tmp mem_cons_self
      have hnotr : cmd ∉ r.toList := fun h => hne _ _ (hlr cmd hcmd cmd (mem_cons_of_mem tmp h)) rfl
      have ih := ihl hl hcmd
      rw [path, mem_cons]
      constructor
      . rintro (heq | hpath) above habove
        . exact absurd heq (hne cmd tmp hcmd')
        have hoid : oid < tmp.oid := by
          by_contra hoid
          rw [if_neg hoid] at hpath
          split at hpath
          . exact hnotr (path_subset oid r hpath)
          . contradiction
        rw [if_pos hoid] at hpath
        rcases habove with ⟨rfl, _⟩ | habove | habove
        . exact hoid
        . exact ih.mp hpath above habove
        . exact absurd habove.mem.1 hnotr
      . intro habove
        have hoid := habove tmp (.inl ⟨rfl, hcmd⟩)
        rw [if_pos hoid]
        exact .inr (ih.mpr fun above h => habove above (.inr (.inl h)))
    . simp only [path, mem_cons, true_or, true_iff]
      rintro above (⟨_, h⟩ | h | h)
      . exact absurd rfl (hne _ _ (hlr cmd h cmd mem_cons_self))
      . exact absurd rfl (hne _ _ (hlr cmd h.mem.1 cmd mem_cons_self))
      . exact absurd rfl (hne _ _ (htmp cmd h.mem.1))
    . have hoid : tmp.oid < oid := lt_of_lt_of_le (hlt _ _ (htmp cmd hcmd)) hle
      rw [path, mem_cons, if_neg (not_lt_of_gt hoid), if_pos hoid, or_iff_right (hne _ _ (htmp cmd hcmd)).symm,
        ihr hr hcmd]
      constructor
      . rintro h above (⟨_, habove⟩ | habove | habove)
        . exact absurd rfl (hne _ _ (hlr cmd habove cmd (mem_cons_of_mem tmp hcmd)))
        . exact absurd rfl (hne _ _ (hlr cmd habove.mem.1 cmd (mem_cons_of_mem tmp hcmd)))
        . exact h above habove
      . exact fun h above habove => h above (.inr (.inr habove))

theorem exists_mostSpecific (cmds : List TrapCmd) (oid : Oid) : ∃ res, MostSpecific cmds oid res := by
  have hmem (cmd : TrapCmd) : cmd ∈ cmds.filter (·.oid <+: oid) ↔ cmd ∈ cmds ∧ cmd.oid <+: oid := by
    rw [mem_filter, decide_eq_true_iff]
  refine ⟨(cmds.filter (·.oid <+: oid)).argmax (·.oid.length), ?_⟩
  cases hbest : (cmds.filter (·.oid <+: oid)).argmax (·.oid.length) with
  | none => simpa [MostSpecific] using hbest
  | some best =>
    have ⟨hin, hpre⟩ := (hmem best).mp (argmax_mem hbest)
    refine ⟨hin, hpre, ?_⟩
    intro cmd hcmd hpre'
    have hle := le_of_mem_argmax ((hmem cmd).mpr ⟨hcmd, hpre'⟩) hbest
    exact prefix_of_prefix_length_le hpre' hpre hle

-- two commands of the tree with one identifier are the same
theorem mostSpecific_unique {cmds : List TrapCmd} {oid : Oid} {cmd : TrapCmd} {res : Option TrapCmd}
    (h : MostSpecific (registered cmds) oid (some cmd)) (hres : MostSpecific (registered cmds) oid res)
    : res = some cmd := by
  cases res with
  | none => exact absurd h.2.1 (hres cmd h.1)
  | some best =>
    have hle := h.2.2 best hres.1 hres.2.1
    have heq : best.oid = cmd.oid := hle.eq_of_length_le (hres.2.2 cmd h.1 h.2.1).length_le
    have hbest := (mem_trapcmdTree cmds best).mp ((mem_registered cmds best).mp hres.1)
    have hcmd := (mem_trapcmdTree cmds cmd).mp ((mem_registered cmds cmd).mp h.1)
    rw [heq] at hbest
    exact hbest.symm.trans hcmd

theorem trapcmdLookup_mostSpecific_iff (cmds : List TrapCmd) (oid : Oid)
    : MostSpecific (registered cmds) oid (trapcmdLookup oid (trapcmdTree cmds))
      ↔ ∀ cmd above, MostSpecific (registered cmds) oid (some cmd) → LeftOf cmd above (trapcmdTree cmds) →
        ¬above.oid < oid := by
  have htree := trapcmdTree_ordered cmds
  rcases trapcmdFind_mostSpecific htree oid none with ⟨res, hpath, heq⟩
  rw [Option.or_none] at heq
  have hlookup : trapcmdLookup oid (trapcmdTree cmds) = res := heq
  have hregistered : ∀ cmd ∈ path oid (trapcmdTree cmds), cmd ∈ registered cmds :=
    fun cmd hcmd => (mem_registered cmds cmd).mpr (path_subset oid _ hcmd)
  rw [hlookup]
  constructor
  . intro hres cmd above hcmd habove hlt
    cases mostSpecific_unique hcmd hres
    have hle := Subtree.le_of_isPrefix hcmd.2.1
    exact lt_asymm hlt ((mem_path_iff htree habove.mem.1 hle).mp hpath.1 above habove)
  intro hcond
  rcases exists_mostSpecific (registered cmds) oid with ⟨_ | cmd, hcmd⟩
  . cases res with
    | none => exact hcmd
    | some best => exact absurd hpath.2.1 (hcmd best (hregistered best hpath.1))
  have hmem := (mem_registered cmds cmd).mp hcmd.1
  have hle := Subtree.le_of_isPrefix hcmd.2.1
  have hvisited : cmd ∈ path oid (trapcmdTree cmds) := by
    apply (mem_path_iff htree hmem hle).mpr
    intro above habove
    apply lt_of_le_of_ne (not_lt.mp (hcond cmd above hcmd habove))
    -- a command for the identifier itself would be more specific
    intro heq
    have hpre : above.oid <+: oid := heq ▸ prefix_rfl
    have hmore := hcmd.2.2 above ((mem_registered cmds above).mpr habove.mem.2) hpre
    exact not_le_of_gt (habove.lt htree) (Subtree.le_of_isPrefix hmore)
  cases res with
  | none => exact absurd hcmd.2.1 (hpath cmd hvisited)
  | some best =>
    refine ⟨hregistered best hpath.1, hpath.2.1, ?_⟩
    intro cmd' hcmd' hpre
    exact (hcmd.2.2 cmd' hcmd' hpre).trans (hpath.2.2 cmd hvisited hcmd.2.1)

theorem trapcmdLookup_misses
    : let cmds := [⟨[1, 3], []⟩, ⟨[1, 3, 1], []⟩, ⟨[1, 3, 2], []⟩]
      trapcmdLookup [1, 3, 6] (trapcmdTree cmds) = none ∧ ¬MostSpecific (registered cmds) [1, 3, 6] none := by
  refine ⟨by decide, ?_⟩
  intro h
  exact h ⟨[1, 3], []⟩ (by decide) (by decide)

end TrapHandler
