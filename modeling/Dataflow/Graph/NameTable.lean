import Dataflow.Graph.Node

/-!
# Name tables

Which node bears a name, as a list of pairs in which a name stands at most once. `find?_insert` and
`find?_erase` say what the operations do.
-/

namespace Dataflow

/-- Names with the positions of the nodes that bear them. -/
structure NameTable where
  pairs : List (String × NodeId)

namespace NameTable

def empty : NameTable := ⟨[]⟩

/-- The node of that name. -/
def find? (t : NameTable) (name : String) : Option NodeId := t.pairs.lookup name

/-- Forgets a name. -/
def erase (t : NameTable) (name : String) : NameTable := ⟨t.pairs.filter fun p => p.1 != name⟩

/-- Gives a name to a node, and takes it from the node that had it. -/
def insert (t : NameTable) (name : String) (i : NodeId) : NameTable :=
  ⟨(name, i) :: (t.erase name).pairs⟩

@[simp] theorem find?_empty (name : String) : empty.find? name = none := rfl

theorem lookup_filter_ne (l : List (String × NodeId)) (name other : String) :
    (l.filter fun p => p.1 != name).lookup other =
      if other = name then none else l.lookup other := by
  induction l with
  | nil => simp
  | cons p rest ih =>
    obtain ⟨s, i⟩ := p
    rw [List.filter_cons]
    by_cases hs : s = name
    · by_cases ho : other = name
      · rw [if_pos ho] at ih
        simpa [hs, ho] using ih
      · have : (other == s) = false := by simp [hs, ho]
        simp [hs, ih, ho, List.lookup_cons, hs ▸ this]
    · by_cases ho : other = s
      · simp [hs, ho]
      · have : (other == s) = false := by simp [ho]
        simp [hs, ih, List.lookup_cons, this]

theorem find?_erase (t : NameTable) (name other : String) :
    (t.erase name).find? other = if other = name then none else t.find? other :=
  lookup_filter_ne t.pairs name other

theorem find?_insert (t : NameTable) (name other : String) (i : NodeId) :
    (t.insert name i).find? other = if other = name then some i else t.find? other := by
  by_cases h : other = name
  · simp [find?, insert, h]
  · have hb : (other == name) = false := by simp [h]
    simpa [find?, insert, List.lookup_cons, hb, h] using find?_erase t name other

end NameTable

end Dataflow
