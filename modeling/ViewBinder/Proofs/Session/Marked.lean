-- Markers along a run: each gets the next number of the supply, keeps its meaning, and references
-- have markers of their own. So the markers of a session that ran from an empty table are told
-- apart by their numbers. Packages keep the names they got, and keys of types what they lead to.
import Mathlib.Data.List.Nodup
import ViewBinder.Proofs.Catalog.Lookup
import ViewBinder.Proofs.Draft.Settle
import ViewBinder.Proofs.Program.Imports
import ViewBinder.Proofs.Session.Run

namespace ViewBinder

/-! ## Numbers -/

theorem Marker.id?_text {k n : Nat} (h : Marker.id? (Marker.text k) = some n) : n = k := by
  obtain ⟨hne, hdigits⟩ := Text.isDigitByte_ofNat k
  have hpieces := Marker.pieces_marker hne hdigits []
  rw [List.append_nil, Marker.pieces_nil] at hpieces
  unfold Marker.id? at h
  rw [show Marker.text k = Marker.front ++ Text.ofNat k ++ Marker.back from rfl, hpieces] at h
  simp only [Text.digitsValue_ofNat] at h
  split at h
  · exact (Option.some.inj h).symm
  · cases h

namespace Markers

/-- The markers have the numbers of the supply, in the order they were made. -/
def Numbered (m : Markers) : Prop :=
  m.entries.map (·.1) = (List.range m.entries.length).map m.supply

theorem Numbered.add {m : Markers} (h : m.Numbered) (source : Text) (place : Option Location)
    (meaning : Meaning) : (m.add source place meaning).2.Numbered := by
  unfold Numbered at h ⊢
  simp only [Markers.add, List.map_append, List.length_append, h]
  simp [List.range_succ]

theorem Fixed.add {m : Markers} (h : m.Fixed) (source : Text) (place : Option Location)
    (value : Text) : (m.add source place (.known value)).2.Fixed := by
  intro e he
  rcases List.mem_append.mp he with hold | hnew
  · exact h e hold
  · rw [List.mem_singleton.mp hnew]
    exact ⟨value, rfl⟩

theorem Numbered.nodup {m : Markers} (h : m.Numbered) (hsupply : Function.Injective m.supply) :
    (m.entries.map (·.1)).Nodup := by
  rw [h]
  exact List.nodup_range.map hsupply

/-- More markers were made since. -/
structure Grows (m m' : Markers) : Prop where
  supply : m'.supply = m.supply
  entries : m.entries <+: m'.entries

theorem Grows.refl (m : Markers) : Grows m m := ⟨rfl, List.prefix_refl _⟩

theorem Grows.trans {m m' m'' : Markers} (h : Grows m m') (h' : Grows m' m'') : Grows m m'' :=
  ⟨h'.supply.trans h.supply, h.entries.trans h'.entries⟩

theorem grows_add (m : Markers) (source : Text) (place : Option Location) (meaning : Meaning) :
    Grows m (m.add source place meaning).2 := ⟨rfl, List.prefix_append _ _⟩

/-- A marker keeps its entry while others are made. -/
theorem Grows.find? {m m' : Markers} (h : Grows m m') {n : Nat} {entry : MarkerEntry}
    (hfind : m.find? n = some entry) : m'.find? n = some entry := by
  obtain ⟨rest, hentries⟩ := h.entries
  unfold Markers.find? at hfind ⊢
  rw [← hentries, List.lookup_append, hfind]
  rfl

/-- A new marker is found by its number. -/
theorem find?_add {m : Markers} (h : m.Numbered) (hsupply : Function.Injective m.supply)
    (source : Text) (place : Option Location) (meaning : Meaning) :
    (m.add source place meaning).2.find? (m.supply m.entries.length) =
      some ⟨source, place, meaning⟩ := by
  have hnone : m.entries.lookup (m.supply m.entries.length) = none := by
    rw [List.lookup_eq_none_iff]
    intro e he
    have hmem : e.1 ∈ m.entries.map (·.1) := List.mem_map_of_mem he
    rw [h] at hmem
    obtain ⟨k, hk, hsame⟩ := List.mem_map.mp hmem
    have hlt := List.mem_range.mp hk
    rw [← hsame]
    simp only [bne_iff_ne, ne_eq]
    intro heq
    exact absurd (hsupply heq) (Nat.ne_of_gt hlt)
  unfold Markers.find? Markers.add
  rw [List.lookup_append, hnone]
  simp

end Markers

/-! ## Steps and runs -/

@[simp] theorem FieldTable.references_depend (t : FieldTable) (name : Text) :
    (t.depend name).references = t.references := by
  unfold depend
  split <;> rfl

theorem FieldTable.references_register {t t' : FieldTable} {c : Catalog}
    {precedence : Precedence} {type : Option TypeId} {name : Text} {id : FieldId}
    (h : t.register c precedence type name = .ok (id, t')) : t'.references = t.references := by
  unfold register at h
  split at h
  · cases h
  · cases h
    exact references_depend _ _

namespace Draft

/-- Markers are numbered and stand for texts, and references have markers of their own. -/
structure Marked (d : Draft) : Prop where
  numbered : d.markers.Numbered
  fixed : d.markers.Fixed
  references : (d.fields.references.map (·.marker)).Sublist
    (d.markers.entries.map fun e => Marker.text e.1)

theorem Marked.apart {d : Draft} (h : d.Marked) (hsupply : Function.Injective d.markers.supply) :
    Apart d.fields.references := by
  have hdistinct : (d.markers.entries.map fun e => Marker.text e.1).Pairwise
      fun a b => ∀ n, Marker.id? a = some n → Marker.id? b ≠ some n := by
    have hnodup := h.numbered.nodup hsupply
    rw [List.Nodup, List.pairwise_map] at hnodup
    rw [List.pairwise_map]
    refine hnodup.imp fun hne n ha hb => hne ?_
    rw [← Marker.id?_text ha, ← Marker.id?_text hb]
  have hrefs := List.Pairwise.sublist h.references hdistinct
  rwa [List.pairwise_map] at hrefs

theorem Marked.mark {d : Draft} (h : d.Marked) (source : Text) (place : Option Location)
    (value : Text) :
    Marked { d with markers := (d.markers.add source place (.known value)).2 } := by
  refine ⟨h.numbered.add _ _ _, h.fixed.add _ _ _, ?_⟩
  simp only [Markers.add, List.map_append]
  exact h.references.trans (List.sublist_append_left _ _)

theorem Step.marked {d d' : Draft} (hstep : Step d d') (h : d.Marked) : d'.Marked := by
  cases hstep with
  | mark source place value => exact h.mark source place value
  | refer e path types =>
    refine ⟨h.numbered.add _ _ _, h.fixed.add _ _ _, ?_⟩
    show (((d.fields.addReference _).references).map _).Sublist
      ((d.markers.entries ++ [_]).map _)
    unfold FieldTable.addReference
    rw [FieldTable.references_depend, List.map_append, List.map_append]
    exact h.references.append (List.Sublist.refl _)
  | _ => exact ⟨h.numbered, h.fixed, h.references⟩

theorem Step.grows {d d' : Draft} (hstep : Step d d') : d.markers.Grows d'.markers := by
  cases hstep with
  | mark source place value => exact Markers.grows_add _ _ _ _
  | refer e path types => exact Markers.grows_add _ _ _ _
  | _ => exact Markers.Grows.refl _

/-- A marker that was made for no reference. -/
structure Free (d : Draft) (n : Nat) : Prop where
  made : ∃ i < d.markers.entries.length, n = d.markers.supply i
  apart : ∀ r ∈ d.fields.references, Marker.id? r.marker ≠ some n

theorem Marked.free_mark {d : Draft} (h : d.Marked)
    (hsupply : Function.Injective d.markers.supply) (source : Text) (place : Option Location)
    (value : Text) :
    Free { d with markers := (d.markers.add source place (.known value)).2 }
      (d.markers.supply d.markers.entries.length) := by
  refine ⟨⟨d.markers.entries.length, by simp [Markers.add], rfl⟩, fun r hr heq => ?_⟩
  have hmem := h.references.subset (List.mem_map_of_mem (f := fun r => r.marker) hr)
  obtain ⟨e, he, htext⟩ := List.mem_map.mp hmem
  rw [← htext] at heq
  have hid : e.1 ∈ d.markers.entries.map (·.1) := List.mem_map_of_mem he
  rw [h.numbered] at hid
  obtain ⟨i, hi, hsame⟩ := List.mem_map.mp hid
  rw [← hsame] at heq
  exact absurd (hsupply (Marker.id?_text heq)) (Nat.ne_of_gt (List.mem_range.mp hi))

theorem Step.free {d d' : Draft} {n : Nat} (hstep : Step d d')
    (hsupply : Function.Injective d.markers.supply) (h : d.Free n) : d'.Free n := by
  obtain ⟨i, hi, rfl⟩ := h.made
  cases hstep with
  | mark source place value =>
    refine ⟨⟨i, ?_, rfl⟩, h.apart⟩
    exact Nat.lt_of_lt_of_le hi (Markers.grows_add _ _ _ _).entries.length_le
  | refer e path types =>
    refine ⟨⟨i, ?_, rfl⟩, fun r hr heq => ?_⟩
    · exact Nat.lt_of_lt_of_le hi (Markers.grows_add _ _ _ _).entries.length_le
    · change r ∈ (d.fields.addReference _).references at hr
      unfold FieldTable.addReference at hr
      rw [FieldTable.references_depend] at hr
      rcases List.mem_append.mp hr with hold | hnew
      · exact h.apart r hold heq
      · rw [List.mem_singleton.mp hnew] at heq
        exact absurd (hsupply (Marker.id?_text heq)) (Nat.ne_of_lt hi)
  | _ => exact ⟨⟨i, hi, rfl⟩, h.apart⟩

theorem Step.names {d d' : Draft} {key : Text} {t : TypeId} (hstep : Step d d')
    (h : d.catalog.Names key t) : d'.catalog.Names key t := by
  cases hstep with
  | addType decl => exact h.push decl
  | setMethods id f => exact h.change id fun _ => rfl
  | adopt id catalog hadopt => exact h.adopt hadopt
  | _ => exact h

end Draft

namespace Session

theorem Step.grows {s s' : Session} (hstep : Step s s') : s.markers.Grows s'.markers := by
  cases hstep with
  | draft hstep => exact hstep.grows
  | _ => exact Markers.Grows.refl _

theorem Step.marked {s s' : Session} (hstep : Step s s') (h : s.toDraft.Marked) :
    s'.toDraft.Marked := by
  cases hstep with
  | draft hstep => exact hstep.marked h
  | declare hregister =>
    refine ⟨h.numbered, h.fixed, ?_⟩
    show (_ : List Text).Sublist _
    rw [FieldTable.references_register hregister]
    exact h.references
  | _ => exact h

theorem Step.free {s s' : Session} {n : Nat} (hstep : Step s s')
    (hsupply : Function.Injective s.markers.supply) (h : s.toDraft.Free n) :
    s'.toDraft.Free n := by
  cases hstep with
  | draft hstep => exact hstep.free hsupply h
  | declare hregister =>
    refine ⟨h.made, fun r hr => h.apart r ?_⟩
    rw [← FieldTable.references_register hregister]
    exact hr
  | _ => exact h

/-! ## Sessions on the way -/

/-- A key that everybody knows leads to the type it led to. -/
theorem Reaches.names {s s' : Session} {key : Text} {t : TypeId} (hreaches : Reaches s s')
    (h : s.catalog.Names key t) : s'.catalog.Names key t := by
  induction hreaches with
  | refl => exact h
  | tail _ hstep ih =>
    cases hstep with
    | draft hstep => exact hstep.names ih
    | _ => exact ih

theorem Reaches.parsers {s s' : Session} (hreaches : Reaches s s') : s'.parsers = s.parsers := by
  induction hreaches with
  | refl => rfl
  | tail _ hstep ih => cases hstep <;> exact ih

theorem Reaches.grows {s s' : Session} (hreaches : Reaches s s') :
    s.markers.Grows s'.markers := by
  induction hreaches with
  | refl => exact Markers.Grows.refl _
  | tail _ hstep ih => exact ih.trans hstep.grows

/-- What holds of a session from the start: markers are numbered and told apart, and packages have
plain names. -/
structure Sound (s : Session) : Prop where
  marked : s.toDraft.Marked
  supply : Function.Injective s.markers.supply
  imports : s.imports.Plain

theorem Reaches.sound {s s' : Session} (hreaches : Reaches s s') (h : s.Sound) : s'.Sound where
  marked := by
    induction hreaches with
    | refl => exact h.marked
    | tail _ hstep ih => exact hstep.marked ih
  supply := hreaches.grows.supply ▸ h.supply
  imports := hreaches.imports (P := Imports.Plain) (fun _ path preferred hplain =>
    hplain.add path preferred) h.imports

theorem Reaches.free {s s' : Session} {n : Nat} (hreaches : Reaches s s') (hsound : s.Sound)
    (h : s.toDraft.Free n) : s'.toDraft.Free n := by
  induction hreaches with
  | refl => exact h
  | tail hreaches hstep ih => exact hstep.free ((Reaches.grows hreaches).supply ▸ hsound.supply) ih

end Session

end ViewBinder
