import FlowGraph.Keyed
import Mathlib.Data.List.Induction
import Mathlib.Tactic.Common

/-!
# Tables made of entries

A table that is made of entries, one after the other, holds under each key the value of the last
entry with that key (`get?_ofEntries`), while the keys stand where they first came
(`keys_ofEntries`).  A table is made of its own entries (`Distinct.ofEntries_eq`).
-/

namespace FlowGraph

namespace Keyed

variable {α : Type}

lemma keys_append (table more : Keyed α) : keys (table ++ more) = keys table ++ keys more :=
  List.map_append

lemma ofEntries_append (entries more : List (String × α)) :
    ofEntries (entries ++ more) =
      more.foldl (fun table entry => insert table entry.1 entry.2) (ofEntries entries) :=
  List.foldl_append

lemma ofEntries_concat (entries : List (String × α)) (entry : String × α) :
    ofEntries (entries ++ [entry]) = insert (ofEntries entries) entry.1 entry.2 :=
  ofEntries_append entries [entry]

/-- Under a key stands the value of its last entry. -/
lemma get?_ofEntries (entries : List (String × α)) (key : String) :
    get? (ofEntries entries) key =
      ((entries.filter fun entry => entry.1 = key).getLast?).map Prod.snd := by
  induction entries using List.reverseRecOn with
  | nil => rfl
  | append_singleton entries entry ih =>
    rw [ofEntries_concat, get?_insert, List.filter_append]
    by_cases h : entry.1 = key
    · have hlast : [entry].filter (fun entry => entry.1 = key) = [entry] := by simp [h]
      rw [if_pos h, hlast, List.getLast?_concat]
      rfl
    · have hnone : [entry].filter (fun entry => entry.1 = key) = [] := by simp [h]
      rw [if_neg h, hnone, List.append_nil, ih]

/-- The keys come in the order of their first entries. -/
lemma keys_ofEntries (entries : List (String × α)) :
    keys (ofEntries entries) = (keys entries).eraseDups := by
  induction entries using List.reverseRecOn with
  | nil => rfl
  | append_singleton entries entry ih =>
    rw [ofEntries_concat, keys_insert, ih, keys_append, List.eraseDups_append]
    have hlast : keys [entry] = [entry.1] := rfl
    by_cases h : entry.1 ∈ keys entries
    · have hgone : [entry.1].removeAll (keys entries) = [] := by simp [List.removeAll, h]
      rw [if_pos (List.mem_eraseDups.2 h), hlast, hgone, List.eraseDups_nil, List.append_nil]
    · have hkept : [entry.1].removeAll (keys entries) = [entry.1] := by simp [List.removeAll, h]
      rw [if_neg (mt List.mem_eraseDups.1 h), hlast, hkept]
      rfl

/-- What stands in a table was among its entries. -/
lemma mem_of_mem_ofEntries {entries : List (String × α)} {entry : String × α}
    (h : entry ∈ ofEntries entries) : entry ∈ entries := by
  induction entries using List.reverseRecOn with
  | nil => exact h
  | append_singleton entries last ih =>
    rw [ofEntries_concat] at h
    rcases mem_insert h with rfl | h
    · exact List.mem_append_right entries List.mem_cons_self
    · exact List.mem_append_left _ (ih h)

lemma Distinct.ofEntries_eq {table : Keyed α} (h : Distinct table) : ofEntries table = table := by
  induction table using List.reverseRecOn with
  | nil => rfl
  | append_singleton table last ih =>
    rw [Distinct, keys_append, List.nodup_append] at h
    obtain ⟨htable, -, hnew⟩ := h
    have hlast : last.1 ∉ keys table := fun hmem => hnew last.1 hmem last.1 List.mem_cons_self rfl
    rw [ofEntries_concat, ih htable, insert_of_not_mem last.2 hlast]

end Keyed

end FlowGraph
