import Calculator.Source.Cursor
/-!
# Places of a source

What lies between two positions of a source is a slice, and a position has one place
(`Place.In.eq_of_pos_eq`). A cursor stands in a source with its place and with all that it
has saved (`Cursor.Within`), and what it goes over on one way is the slice between where it
stood and where it stands (`Cursor.Takes`).
-/

namespace Calculator

variable {source text : List Char}

/-! ## Slices -/

/-- A source is a slice and what follows it, from any position on. -/
theorem Span.slice_append_drop {start stop : Nat} (h : start ≤ stop) :
    (Span.mk start stop).slice source ++ source.drop stop = source.drop start := by
  obtain ⟨n, rfl⟩ := Nat.exists_eq_add_of_le h
  rw [slice, ← List.take_drop, ← List.drop_drop, List.take_append_drop]

/-- A slice is a shorter one and what follows that. -/
theorem Span.slice_append {start middle stop : Nat} (h : start ≤ middle) (h' : middle ≤ stop) :
    (Span.mk start middle).slice source ++ (Span.mk middle stop).slice source =
      (Span.mk start stop).slice source := by
  have hcut : (Span.mk start middle).slice source =
      (Span.mk start middle).slice (source.take stop) := by
    rw [slice, slice, List.take_take, Nat.min_eq_left h']
  rw [hcut]
  exact slice_append_drop h

/-- It is what the source begins with there. -/
theorem Span.slice_begins (span : Span) : span.slice source <+: source.drop span.start := by
  rw [slice, List.drop_take]
  exact List.take_prefix _ _

/-- A slice with something in it does not end where it begins. -/
theorem Span.start_lt_stop {span : Span} (h : span.slice source ≠ []) : span.start < span.stop := by
  refine Nat.lt_of_not_le fun hle => h (List.drop_eq_nil_of_le ?_)
  rw [List.length_take]
  omega

/-- It is as long as it says, inside the source. -/
theorem Span.length_slice {span : Span} (h : span.stop ≤ source.length) :
    (span.slice source).length = span.stop - span.start := by
  rw [slice, List.length_drop, List.length_take]
  omega

/-! ## Places -/

/-- **What a text begins with at a place is a slice** of the source. -/
theorem Place.In.slice_eq {place : Place} (h : place.In source) (hbegins : text <+: place.ahead) :
    (Span.mk place.pos (place.pos + text.length)).slice source = text ∧
      place.pos + text.length ≤ source.length := by
  obtain ⟨hle, hahead⟩ := h
  rw [hahead] at hbegins
  have hlength := hbegins.length_le
  rw [List.length_drop] at hlength
  refine ⟨?_, by omega⟩
  rw [Span.slice, ← List.take_drop]
  exact Eq.symm <| List.prefix_iff_eq_take.1 hbegins

/-- Nothing is ahead at the end of the source, and only there. -/
theorem Place.In.ahead_eq_nil_iff {place : Place} (h : place.In source) :
    place.ahead = [] ↔ place.pos = source.length := by
  obtain ⟨hle, hahead⟩ := h
  rw [hahead, List.drop_eq_nil_iff]
  omega

/-- A place of a source has ahead what is not behind it. -/
theorem Place.In.pos_add_length {place : Place} (h : place.In source) :
    place.pos + place.ahead.length = source.length := by
  obtain ⟨hle, hahead⟩ := h
  rw [hahead, List.length_drop]
  omega

/-- Going over what a text begins with goes on by its length. -/
theorem Place.pos_advance {place : Place} {n : Nat} (h : n ≤ place.ahead.length) :
    (place.advance n).pos = place.pos + n := by
  rw [Place.advance, List.length_take, Nat.min_eq_left h]

/-- **A position has one place of a source.** -/
theorem Place.In.eq_of_pos_eq {place other : Place} (h : place.In source) (h' : other.In source)
    (hpos : place.pos = other.pos) : place = other := by
  obtain ⟨pos, ahead⟩ := place
  obtain ⟨pos', ahead'⟩ := other
  obtain rfl : pos = pos' := hpos
  obtain rfl : ahead = ahead' := h.2.trans h'.2.symm
  rfl

namespace Cursor

variable {cursor after : Cursor} {taken : List Char}

/-! ## Where a cursor stands -/

/-- **A cursor stands in a source**: its place and all that it has saved are places of it,
and none of them lies ahead of one saved later. -/
structure Within (source : List Char) (cursor : Cursor) : Prop where
  place_in : cursor.place.In source
  saved_in : ∀ place ∈ cursor.saved, place.In source
  behind : (cursor.place :: cursor.saved).Pairwise fun later earlier => earlier.pos ≤ later.pos

/-- The start of a source is a place of it. -/
theorem in_ofString (source : String) : (ofString source).place.In source.toList :=
  ⟨Nat.zero_le _, rfl⟩

/-- And a cursor that has saved nothing stands there. -/
theorem within_ofString (source : String) : (ofString source).Within source.toList where
  place_in := in_ofString source
  saved_in := nofun
  behind := List.pairwise_singleton _ _

/-- The next character is the one at the position. -/
theorem peek_eq_getElem? (h : cursor.place.In source) : cursor.peek = source[cursor.pos]? := by
  rw [peek, ahead, h.2, List.head?_drop]
  rfl

/-- **It stays in the source wherever it goes**, and what it saved stays behind it. -/
theorem Within.advance (h : cursor.Within source) (n : Nat) :
    (cursor.advance n).Within source where
  place_in := h.place_in.advance n
  saved_in := h.saved_in
  behind := by
    obtain ⟨hle, hsaved⟩ := List.pairwise_cons.1 h.behind
    exact List.pairwise_cons.2
      ⟨fun place hplace => Nat.le_add_right_of_le (hle place hplace), hsaved⟩

/-- Saving its place keeps it there. -/
theorem Within.save (h : cursor.Within source) : cursor.save.Within source where
  place_in := h.place_in
  saved_in := List.forall_mem_cons.2 ⟨h.place_in, h.saved_in⟩
  behind := by
    obtain ⟨hle, -⟩ := List.pairwise_cons.1 h.behind
    exact List.pairwise_cons.2 ⟨List.forall_mem_cons.2 ⟨Nat.le_refl _, hle⟩, h.behind⟩

/-- And so does returning to what was saved last. -/
theorem Within.restore (h : cursor.Within source) : cursor.restore.Within source := by
  obtain ⟨place, _ | ⟨earlier, saved⟩⟩ := cursor
  · exact h
  · obtain ⟨hearlier, hsaved⟩ := List.forall_mem_cons.1 h.saved_in
    exact ⟨hearlier, hsaved, (List.pairwise_cons.1 h.behind).2⟩

/-! ## What a cursor goes over -/

/-- **What lies between two positions is taken**, and what is saved is left alone. -/
structure Takes (source : List Char) (cursor after : Cursor) (taken : List Char) : Prop where
  place_in : after.place.In source
  saved_eq : after.saved = cursor.saved
  pos_le : cursor.pos ≤ after.pos
  taken_eq : taken = (Span.mk cursor.pos after.pos).slice source

/-- **Going over characters takes them.** -/
theorem takes_advance (h : cursor.place.In source) (n : Nat) :
    Takes source cursor (cursor.advance n) (cursor.ahead.take n) where
  place_in := h.advance n
  saved_eq := rfl
  pos_le := Nat.le_add_right _ _
  taken_eq := by
    have hbegins : cursor.ahead.take n <+: cursor.ahead := List.take_prefix n _
    exact (h.slice_eq hbegins).1.symm

/-- A read takes the next character, or none at the end. -/
theorem takes_read (h : cursor.place.In source) :
    Takes source cursor cursor.read.2 source[cursor.pos]?.toList := by
  rw [← peek_eq_getElem? h, peek, ← List.take_one]
  exact takes_advance h 1

/-- And a run of characters is taken whole. -/
theorem takes_takeWhile (h : cursor.place.In source) (test : Char → Bool) :
    Takes source cursor (cursor.takeWhile test).2 (cursor.takeWhile test).1 := by
  have hbegins : cursor.ahead.takeWhile test <+: cursor.ahead := List.takeWhile_prefix test
  have htaken : cursor.ahead.take (cursor.ahead.takeWhile test).length =
      cursor.ahead.takeWhile test :=
    Eq.symm <| List.prefix_iff_eq_take.1 hbegins
  have htakes := takes_advance h (cursor.ahead.takeWhile test).length
  rwa [htaken] at htakes

/-- How far it leads is how much it takes. -/
theorem Takes.pos_eq (h : Takes source cursor after taken) :
    after.pos = cursor.pos + taken.length := by
  have hlength : taken.length = after.pos - cursor.pos := by
    rw [h.taken_eq, Span.length_slice h.place_in.1]
  have hle := h.pos_le
  omega

/-- Where it leads settles what it takes, and all of the cursor behind it. -/
theorem Takes.eq_of_pos_eq {after' : Cursor} {taken' : List Char}
    (h : Takes source cursor after taken) (h' : Takes source cursor after' taken')
    (hpos : after.pos = after'.pos) : taken = taken' ∧ after = after' := by
  refine ⟨by rw [h.taken_eq, h'.taken_eq, hpos], ?_⟩
  obtain ⟨place, saved⟩ := after
  obtain ⟨place', saved'⟩ := after'
  obtain rfl : place = place' := h.place_in.eq_of_pos_eq h'.place_in hpos
  obtain rfl : saved = saved' := h.saved_eq.trans h'.saved_eq.symm
  rfl

/-- And so does what it takes. -/
theorem Takes.unique {after' : Cursor} (h : Takes source cursor after taken)
    (h' : Takes source cursor after' taken) : after = after' :=
  (h.eq_of_pos_eq h' (h.pos_eq.trans h'.pos_eq.symm)).2

end Cursor

end Calculator
