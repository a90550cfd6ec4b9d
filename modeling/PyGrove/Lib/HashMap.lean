import Mathlib.Data.List.AList

set_option autoImplicit false

/- A hash map whose entries are made on first use and changed in place, and whose
   entries come in no particular order when it is walked. -/
namespace HashMap

variable {κ ν : Type} [DecidableEq κ]

abbrev Map (κ ν : Type) := AList fun _ : κ => ν

def getOr (fallback : ν) (map : Map κ ν) (key : κ) : ν := (map.lookup key).getD fallback

def change (fallback : ν) (map : Map κ ν) (key : κ) (f : ν → ν) : Map κ ν :=
  map.insert key (f (getOr fallback map key))

@[simp] theorem get_or_empty (fallback : ν) (key : κ) : getOr fallback (∅ : Map κ ν) key = fallback := by
  rw [getOr, AList.lookup_empty, Option.getD_none]

theorem get_or_change (fallback : ν) (map : Map κ ν) (key key' : κ) (f : ν → ν) :
    getOr fallback (change fallback map key f) key' =
      if key' = key then f (getOr fallback map key) else getOr fallback map key' := by
  by_cases same : key' = key
  · rw [if_pos same, same, change, getOr, AList.lookup_insert, Option.getD_some]
  · rw [if_neg same, change, getOr, AList.lookup_insert_ne same, getOr]

structure Walk (κ ν : Type) where
  arrange : List (Sigma fun _ : κ => ν) → List (Sigma fun _ : κ => ν)
  perm : ∀ entries, (arrange entries).Perm entries

def Walk.inOrder : Walk κ ν := ⟨id, fun _ => .refl _⟩

theorem mem_walk (walk : Walk κ ν) (map : Map κ ν) (key : κ) (value : ν) :
    ⟨key, value⟩ ∈ walk.arrange map.entries ↔ map.lookup key = some value := by
  rw [(walk.perm map.entries).mem_iff, ← AList.mem_lookup_iff]
  rfl

omit [DecidableEq κ] in
theorem walk_keys_nodup (walk : Walk κ ν) (map : Map κ ν) : ((walk.arrange map.entries).map Sigma.fst).Nodup :=
  ((walk.perm map.entries).map Sigma.fst).nodup_iff.mpr map.keys_nodup

theorem get_or_change_all (fallback : ν) (map : Map κ ν) (keys : List κ) (key : κ) (f : ν → ν) (distinct : keys.Nodup) :
    getOr fallback (keys.foldl (fun current k => change fallback current k f) map) key =
      if key ∈ keys then f (getOr fallback map key) else getOr fallback map key := by
  induction keys generalizing map with
  | nil => rw [List.foldl_nil, if_neg List.not_mem_nil]
  | cons head tail ih =>
      obtain ⟨fresh, rest⟩ := List.nodup_cons.mp distinct
      rw [List.foldl_cons, ih _ rest, get_or_change]
      by_cases first : key = head
      · rw [if_pos first, if_neg (first ▸ fresh), if_pos (List.mem_cons.mpr (.inl first)), first]
      · rw [if_neg first]
        simp only [List.mem_cons, first, false_or]

end HashMap
