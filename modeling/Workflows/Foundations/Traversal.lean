import Workflows.Foundations.Adjacency

/-!
# Walks over a graph of shared nodes

A function walks down from some nodes to the children of each, and walks a node that is shared once
for each path to it. What it visits are the arcs below the nodes where it starts; what it collects
is kept once for each key.
-/

namespace Workflows.Traversal

open Filter Relation

universe u v w

section Walk

variable {α : Type u} {σ : Type v} {τ : Type w} (children : α → List α)
  (order : List α → List α)

/-- One call for the nodes of a list, which calls itself for the children of each. -/
def traverse (visit : List α → σ → α → σ) : Nat → List α → List α → σ → Option σ
  | 0, _, _, _ => none
  | fuel + 1, parents, nodes, s =>
    (order nodes).foldlM (fun s node =>
      if (children node).isEmpty then some (visit parents s node)
      else traverse visit fuel [node] (children node) (visit parents s node)) s

/-- The nodes in the order of the visits, each with what it is visited from. -/
def visits (fuel : Nat) (parents nodes : List α) : Option (List (List α × α)) :=
  traverse children order (fun parents log node => log ++ [(parents, node)]) fuel parents nodes []

/-- What is visited below the given nodes. -/
inductive Visited (parents nodes : List α) : List α × α → Prop where
  | here {node : α} (h : node ∈ nodes) : Visited parents nodes (parents, node)
  | below {top node child : α} (htop : top ∈ nodes)
      (hpath : ReflTransGen (fun a b => b ∈ children a) top node) (hchild : child ∈ children node) :
      Visited parents nodes ([node], child)

variable {children order} {visit : List α → σ → α → σ} {visit' : List α → τ → α → τ}
  {fuel : Nat} {parents nodes : List α}

theorem foldlM_map {f : σ → α → Option σ} {g : τ → α → Option τ} {view : σ → τ}
    (h : ∀ s node, g (view s) node = (f s node).map view) (nodes : List α) (s : σ) :
    nodes.foldlM g (view s) = (nodes.foldlM f s).map view := by
  induction nodes generalizing s with
  | nil => rfl
  | cons node nodes ih =>
    rw [List.foldlM_cons, List.foldlM_cons, h]
    cases f s node with
    | none => rfl
    | some s' => exact ih s'

/-- A walk is seen through a view of its state as the walk on what is seen. -/
theorem traverse_map {view : σ → τ}
    (h : ∀ parents s node, view (visit parents s node) = visit' parents (view s) node)
    (fuel : Nat) (parents nodes : List α) (s : σ) :
    traverse children order visit' fuel parents nodes (view s) =
      (traverse children order visit fuel parents nodes s).map view := by
  induction fuel generalizing parents nodes s with
  | zero => rfl
  | succ fuel ih =>
    apply foldlM_map
    intro s node
    rw [← h]
    split
    · rfl
    · exact ih [node] (children node) _

theorem traverse_eq_foldl (visit : List α → σ → α → σ) (fuel : Nat) (parents nodes : List α)
    (s : σ) :
    traverse children order visit fuel parents nodes s =
      (visits children order fuel parents nodes).map fun log =>
        log.foldl (fun s entry => visit entry.1 s entry.2) s := by
  let view (log : List (List α × α)) := log.foldl (fun s entry => visit entry.1 s entry.2) s
  have hview : ∀ parents log node, view (log ++ [(parents, node)]) = visit parents (view log) node :=
    fun _ _ _ => List.foldl_concat ..
  exact traverse_map hview fuel parents nodes []

section Members

theorem visited_iff {entry : List α × α} :
    Visited children parents nodes entry ↔
      ∃ node ∈ nodes, entry = (parents, node) ∨
        Visited children [node] (children node) entry := by
  constructor
  · intro h
    cases h with
    | here h => exact ⟨_, h, .inl rfl⟩
    | @below top node child htop hpath hchild =>
      refine ⟨top, htop, .inr ?_⟩
      cases hpath.cases_head with
      | inl heq =>
        obtain rfl := heq
        exact .here hchild
      | inr hstep =>
        obtain ⟨next, hnext, hrest⟩ := hstep
        exact .below hnext hrest hchild
  · rintro ⟨node, hnode, rfl | h⟩
    · exact .here hnode
    · cases h with
      | here hchild => exact .below hnode .refl hchild
      | below htop hpath hchild => exact .below hnode (.head htop hpath) hchild

/-- What one call for a node adds is added by the calls for a list of them. -/
theorem mem_foldlM_iff {β : Type w} {f : List β → α → Option (List β)} (Adds : α → β → Prop)
    (h : ∀ log node log', f log node = some log' → ∀ b, b ∈ log' ↔ b ∈ log ∨ Adds node b)
    {nodes : List α} {log log' : List β} (hlog : nodes.foldlM f log = some log') (b : β) :
    b ∈ log' ↔ b ∈ log ∨ ∃ node ∈ nodes, Adds node b := by
  induction nodes generalizing log with
  | nil =>
    cases hlog
    simp
  | cons node nodes ih =>
    rw [List.foldlM_cons] at hlog
    obtain ⟨between, hbetween, hrest⟩ := Option.bind_eq_some_iff.mp hlog
    rw [ih hrest, h _ _ _ hbetween, or_assoc, List.exists_mem_cons_iff]

theorem mem_traverse_log_iff (horder : ∀ nodes, (order nodes).Perm nodes)
    {log log' : List (List α × α)}
    (h : traverse children order (fun parents log node => log ++ [(parents, node)]) fuel parents
      nodes log = some log') (entry : List α × α) :
    entry ∈ log' ↔ entry ∈ log ∨ Visited children parents nodes entry := by
  induction fuel generalizing parents nodes log log' entry with
  | zero => cases h
  | succ fuel ih =>
    have hstep := mem_foldlM_iff
      (fun node entry => entry = (parents, node) ∨
        Visited children [node] (children node) entry) ?_ h entry
    · rw [hstep, visited_iff]
      apply or_congr_right
      simp only [(horder nodes).mem_iff]
    · intro log node log' hlog entry
      split at hlog
      next hleaf =>
        obtain rfl := Option.some.inj hlog
        have hnone : ¬Visited children [node] (children node) entry := by
          rw [visited_iff, List.isEmpty_iff.mp hleaf]
          simp
        rw [List.mem_append, List.mem_singleton, or_iff_left hnone]
      next hinner =>
        rw [ih hlog, List.mem_append, List.mem_singleton, or_assoc]

theorem mem_visits_iff (horder : ∀ nodes, (order nodes).Perm nodes) {log : List (List α × α)}
    (h : visits children order fuel parents nodes = some log) (entry : List α × α) :
    entry ∈ log ↔ Visited children parents nodes entry := by
  rw [mem_traverse_log_iff horder h, or_iff_right List.not_mem_nil]

theorem exists_visited_iff {node : α} :
    (∃ parents', Visited children parents nodes (parents', node)) ↔
      ∃ top ∈ nodes, ReflTransGen (fun a b => b ∈ children a) top node := by
  constructor
  · rintro ⟨parents', h⟩
    cases h with
    | here h => exact ⟨node, h, .refl⟩
    | below htop hpath hchild => exact ⟨_, htop, hpath.tail hchild⟩
  · rintro ⟨top, htop, hpath⟩
    cases hpath with
    | refl => exact ⟨parents, .here htop⟩
    | tail hpath hchild => exact ⟨_, .below htop hpath hchild⟩

end Members

section Ends

theorem exists_foldlM {f : σ → α → Option σ} {nodes : List α}
    (h : ∀ node ∈ nodes, ∀ s, ∃ s', f s node = some s') (s : σ) :
    ∃ s', nodes.foldlM f s = some s' := by
  induction nodes generalizing s with
  | nil => exact ⟨s, rfl⟩
  | cons node nodes ih =>
    obtain ⟨hnode, hnodes⟩ := List.forall_mem_cons.mp h
    obtain ⟨between, hbetween⟩ := hnode s
    obtain ⟨s', hs'⟩ := ih hnodes between
    exact ⟨s', by rw [List.foldlM_cons, hbetween]; exact hs'⟩

theorem foldlM_mono {f g : σ → α → Option σ}
    (h : ∀ s node s', f s node = some s' → g s node = some s') {nodes : List α} {s s' : σ}
    (hs : nodes.foldlM f s = some s') : nodes.foldlM g s = some s' := by
  induction nodes generalizing s with
  | nil => exact hs
  | cons node nodes ih =>
    rw [List.foldlM_cons] at hs ⊢
    obtain ⟨between, hbetween, hrest⟩ := Option.bind_eq_some_iff.mp hs
    rw [h _ _ _ hbetween]
    exact ih hrest

theorem traverse_succ {s s' : σ}
    (h : traverse children order visit fuel parents nodes s = some s') :
    traverse children order visit (fuel + 1) parents nodes s = some s' := by
  induction fuel generalizing parents nodes s s' with
  | zero => cases h
  | succ fuel ih =>
    refine foldlM_mono ?_ h
    intro s node s' hnode
    split at hnode
    next hleaf => rw [if_pos hleaf, hnode]
    next hinner => rw [if_neg hinner, ih hnode]

theorem traverse_mono {more : Nat} (hle : fuel ≤ more) {s s' : σ}
    (h : traverse children order visit fuel parents nodes s = some s') :
    traverse children order visit more parents nodes s = some s' := by
  induction hle with
  | refl => exact h
  | step _ ih => exact traverse_succ ih

/-- The walk ends below nodes under which every path ends. -/
theorem eventually_traverse (visit : List α → σ → α → σ)
    (horder : ∀ nodes, (order nodes).Perm nodes)
    (h : ∀ node ∈ nodes, Acc (fun b a => b ∈ children a) node) :
    ∀ᶠ fuel in atTop, ∀ parents s,
      ∃ s', traverse children order visit fuel parents nodes s = some s' := by
  have hlist : ∀ nodes : List α, (∀ node ∈ nodes, ∀ᶠ fuel in atTop, ∀ s,
      ∃ s', traverse children order visit fuel [node] (children node) s = some s') →
      ∀ᶠ fuel in atTop, ∀ parents s,
        ∃ s', traverse children order visit fuel parents nodes s = some s' := by
    intro nodes hnodes
    have hall := (eventually_all_finite nodes.finite_toSet).mpr hnodes
    obtain ⟨enough, henough⟩ := eventually_atTop.mp hall
    refine eventually_atTop.mpr ⟨enough + 1, fun fuel hfuel parents s => ?_⟩
    obtain ⟨fuel, rfl⟩ := Nat.exists_eq_add_of_le' (Nat.one_le_of_lt hfuel)
    apply exists_foldlM
    intro node hnode s
    split
    · exact ⟨_, rfl⟩
    · exact henough fuel (Nat.le_of_succ_le_succ hfuel) node ((horder nodes).mem_iff.mp hnode) _
  refine hlist nodes fun node hnode => ?_
  have hacc := h node hnode
  clear hnode
  induction hacc with
  | intro node _ ih =>
    exact (hlist (children node) ih).mono fun fuel hfuel s => hfuel [node] s

/-- With enough fuel the result is one and the same. -/
theorem exists_visits (horder : ∀ nodes, (order nodes).Perm nodes)
    (h : ∀ node ∈ nodes, Acc (fun b a => b ∈ children a) node) (parents : List α) :
    ∃ log, (∀ entry, entry ∈ log ↔ Visited children parents nodes entry) ∧
      ∀ᶠ fuel in atTop, visits children order fuel parents nodes = some log := by
  obtain ⟨enough, henough⟩ := eventually_atTop.mp (eventually_traverse
    (fun parents log node => log ++ [(parents, node)]) horder h)
  obtain ⟨log, hlog⟩ := henough enough le_rfl parents []
  refine ⟨log, mem_visits_iff horder hlog, eventually_atTop.mpr ⟨enough, ?_⟩⟩
  exact fun more hmore => traverse_mono hmore hlog

end Ends

end Walk

section Keyed

variable {β : Type u} {κ : Type v} [DecidableEq κ] {key : β → κ}

/-- `if (!list.some(…)) list.push(…)` -/
def pushNew (key : β → κ) (kept : List β) (b : β) : List β :=
  if kept.any (key · = key b) then kept else kept ++ [b]

theorem keys_pushNew (kept : List β) (b : β) (k : κ) :
    k ∈ (pushNew key kept b).map key ↔ k ∈ kept.map key ∨ k = key b := by
  rw [pushNew]
  split_ifs with hkept
  · obtain ⟨c, hc, hkey⟩ := List.any_eq_true.mp hkept
    refine ⟨.inl, fun h => h.elim id fun hk => ?_⟩
    exact List.mem_map.mpr ⟨c, hc, (of_decide_eq_true hkey).trans hk.symm⟩
  · rw [List.map_append, List.mem_append]
    exact or_congr_right List.mem_singleton

theorem nodup_pushNew {kept : List β} (h : (kept.map key).Nodup) (b : β) :
    ((pushNew key kept b).map key).Nodup := by
  rw [pushNew]
  split_ifs with hkept
  · exact h
  · rw [List.map_append, List.map_singleton]
    refine List.nodup_append.mpr ⟨h, List.nodup_singleton _, ?_⟩
    rintro _ hk _ hb rfl
    obtain ⟨c, hc, hkey⟩ := List.mem_map.mp hk
    exact hkept (List.any_eq_true.mpr ⟨c, hc,
      decide_eq_true (hkey.trans (List.mem_singleton.mp hb))⟩)

theorem mem_of_mem_pushNew {kept : List β} {b c : β} (h : c ∈ pushNew key kept b) :
    c ∈ kept ∨ c = b := by
  rw [pushNew] at h
  split_ifs at h
  · exact .inl h
  · exact (List.mem_append.mp h).imp_right List.mem_singleton.mp

theorem keys_foldl_pushNew (bs kept : List β) (k : κ) :
    k ∈ (bs.foldl (pushNew key) kept).map key ↔ k ∈ kept.map key ∨ k ∈ bs.map key := by
  induction bs generalizing kept with
  | nil => simp
  | cons b bs ih =>
    rw [List.foldl_cons, ih, keys_pushNew, or_assoc, List.map_cons, List.mem_cons]

theorem nodup_foldl_pushNew (key : β → κ) (bs : List β) :
    ((bs.foldl (pushNew key) []).map key).Nodup := by
  have hkept : ∀ kept : List β, (kept.map key).Nodup →
      ((bs.foldl (pushNew key) kept).map key).Nodup := by
    induction bs with
    | nil => exact fun _ h => h
    | cons b bs ih => exact fun kept h => ih _ (nodup_pushNew h b)
  exact hkept [] List.nodup_nil

theorem mem_of_mem_foldl_pushNew {bs kept : List β} {c : β}
    (h : c ∈ bs.foldl (pushNew key) kept) : c ∈ kept ∨ c ∈ bs := by
  induction bs generalizing kept with
  | nil => exact .inl h
  | cons b bs ih =>
    rw [List.mem_cons, ← or_assoc]
    exact (ih h).imp_left mem_of_mem_pushNew

theorem mem_foldl_pushNew_iff {bs : List β}
    (h : ∀ b ∈ bs, ∀ c ∈ bs, key b = key c → b = c) {c : β} :
    c ∈ bs.foldl (pushNew key) [] ↔ c ∈ bs := by
  refine ⟨fun hc => (mem_of_mem_foldl_pushNew hc).resolve_left List.not_mem_nil, fun hc => ?_⟩
  obtain ⟨b, hb, hkey⟩ := List.mem_map.mp
    ((keys_foldl_pushNew bs [] (key c)).mpr (.inr (List.mem_map_of_mem hc)))
  have hbs : b ∈ bs := (mem_of_mem_foldl_pushNew hb).resolve_left List.not_mem_nil
  exact h b hbs c hc hkey ▸ hb

end Keyed

end Workflows.Traversal
