import KafkaEdgeRouter.RouterOperations
import Mathlib.Data.List.Induction

/-!
# Matching: merging buckets per connection

A dispatch goes through the candidate keys and merges the subscription identifiers of every bucket
into one entry per connection. What it collects for a connection is `gather` of that connection's
items: every identifier that stands under a candidate key, once.
-/

namespace KafkaEdgeRouter.Router

open InvertedIndex

theorem mergeIds_cons (entry ids : List SubscriptionId) (sid : SubscriptionId) :
    mergeIds entry (sid :: ids) = mergeIds (if sid ∈ entry then entry else entry ++ [sid]) ids :=
  rfl

theorem mem_mergeIds {entry ids : List SubscriptionId} {sid : SubscriptionId} :
    sid ∈ mergeIds entry ids ↔ sid ∈ entry ∨ sid ∈ ids := by
  induction ids generalizing entry with
  | nil => simp [mergeIds]
  | cons sid' ids ih =>
    rw [mergeIds_cons, ih]
    split_ifs with hmem
    · constructor
      · rintro (h | h)
        · exact Or.inl h
        · exact Or.inr (List.mem_cons_of_mem _ h)
      · rintro (h | h)
        · exact Or.inl h
        · rcases List.mem_cons.mp h with rfl | h
          · exact Or.inl hmem
          · exact Or.inr h
    · simp [or_assoc]

theorem nodup_mergeIds {entry ids : List SubscriptionId} (h : entry.Nodup) :
    (mergeIds entry ids).Nodup := by
  induction ids generalizing entry with
  | nil => exact h
  | cons sid ids ih =>
    rw [mergeIds_cons]
    apply ih
    split_ifs with hmem
    · exact h
    · exact h.append (List.nodup_singleton sid) (List.disjoint_singleton.mpr hmem)

theorem mergeIds_ne_nil {entry ids : List SubscriptionId} (h : ids ≠ []) :
    mergeIds entry ids ≠ [] := by
  obtain ⟨sid, hmem⟩ := List.exists_mem_of_ne_nil ids h
  exact List.ne_nil_of_mem (mem_mergeIds.mpr (Or.inr hmem))

section Collect

variable {c : ConnectionId}

theorem lookup_foldl_of_notMem (l : List (ConnectionId × List SubscriptionId)) (found : Matches)
    (hc : c ∉ l.map Prod.fst) :
    (l.foldl (fun found e => found.insert e.1 (mergeIds ((found.lookup e.1).getD []) e.2))
      found).lookup c = found.lookup c := by
  induction l generalizing found with
  | nil => rfl
  | cons e l ih =>
    rw [List.map_cons, List.mem_cons, not_or] at hc
    rw [List.foldl_cons, ih _ hc.2, AList.lookup_insert_ne hc.1]

theorem lookup_foldl_of_mem {l : List (ConnectionId × List SubscriptionId)}
    (hnd : (l.map Prod.fst).Nodup) (found : Matches) {ids : List SubscriptionId}
    (hc : (c, ids) ∈ l) :
    (l.foldl (fun found e => found.insert e.1 (mergeIds ((found.lookup e.1).getD []) e.2))
      found).lookup c = some (mergeIds ((found.lookup c).getD []) ids) := by
  induction l generalizing found with
  | nil => cases hc
  | cons e l ih =>
    rw [List.map_cons, List.nodup_cons] at hnd
    rw [List.foldl_cons]
    rcases List.mem_cons.mp hc with rfl | hc
    · rw [lookup_foldl_of_notMem l _ hnd.1, AList.lookup_insert]
    · have hne : c ≠ e.1 := fun h => hnd.1 (h ▸ List.mem_map.mpr ⟨_, hc, rfl⟩)
      rw [ih hnd.2 _ hc, AList.lookup_insert_ne hne]

theorem lookup_collect_none {bucket : Bucket ConnectionId SubscriptionId} (found : Matches)
    (hc : bucket.lookup c = none) : (collect bucket found).lookup c = found.lookup c := by
  apply lookup_foldl_of_notMem
  rw [AList.pairs_map_fst, ← AList.mem_keys]
  exact AList.lookup_eq_none.mp hc

theorem lookup_collect_some {bucket : Bucket ConnectionId SubscriptionId} (found : Matches)
    {ids : List SubscriptionId} (hc : bucket.lookup c = some ids) :
    (collect bucket found).lookup c = some (mergeIds ((found.lookup c).getD []) ids) :=
  lookup_foldl_of_mem bucket.nodup_pairs_fst found (AList.mem_pairs.mpr hc)

end Collect

/-- The identifiers of a connection under the keys, each once. -/
def gather (routes : Routes) (c : ConnectionId) (keys : List RouteKey) : List SubscriptionId :=
  keys.foldl (fun ids k => mergeIds ids (items routes k c)) []

theorem gather_concat (routes : Routes) (c : ConnectionId) (keys : List RouteKey) (k : RouteKey) :
    gather routes c (keys ++ [k]) = mergeIds (gather routes c keys) (items routes k c) := by
  simp [gather]

theorem mem_gather {routes : Routes} {c : ConnectionId} {keys : List RouteKey}
    {sid : SubscriptionId} :
    sid ∈ gather routes c keys ↔ ∃ k ∈ keys, sid ∈ items routes k c := by
  induction keys using List.reverseRecOn with
  | nil => simp [gather]
  | append_singleton keys k ih =>
    rw [gather_concat, mem_mergeIds, ih]
    simp [or_and_right, exists_or]

theorem nodup_gather (routes : Routes) (c : ConnectionId) (keys : List RouteKey) :
    (gather routes c keys).Nodup := by
  induction keys using List.reverseRecOn with
  | nil => exact List.nodup_nil
  | append_singleton keys k ih =>
    rw [gather_concat]
    exact nodup_mergeIds ih

theorem gather_congr {routes routes' : Routes} {c : ConnectionId}
    (h : ∀ k, items routes' k c = items routes k c) (keys : List RouteKey) :
    gather routes' c keys = gather routes c keys := by
  simp only [gather, h]

end KafkaEdgeRouter.Router
