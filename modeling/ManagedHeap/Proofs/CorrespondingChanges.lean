import ManagedHeap.Proofs.Correspondence

/-!
# Changes that keep heaps corresponding

A new entity in both heaps adds a pair to the renaming.  A change of an entity
that is there, made to both partners, needs no other renaming.
-/

namespace ManagedHeap

namespace Heap

variable {before after : Heap}

/-- Chains depend on nothing but headers. -/
theorem Grounded.of_header_iff (hgrounded : before.Grounded)
    (hheaders : ∀ object header,
      after.header object = .ok header ↔ before.header object = .ok header) :
    after.Grounded := by
  apply hgrounded.extend
  · intro object header hheader
    exact (hheaders object header).2 hheader
  · intro object header hheader
    exact .inl ((hheaders object header).1 hheader)

theorem Rebuilds.header_eq_ok_iff {array : ArrayHandle} {record : ArrayRecord} {body : Body}
    (hrebuilds : before.Rebuilds after array record body)
    (hget : before.arrays.get? array = some record) (object : Object) (header : Header) :
    after.header object = .ok header ↔ before.header object = .ok header := by
  cases object with
  | ordinary handle =>
      rw [header_ordinary_eq_ok_iff, header_ordinary_eq_ok_iff, hrebuilds.objects_eq]
  | array handle =>
      rw [header_array_eq_ok_iff, header_array_eq_ok_iff]
      by_cases hhandle : handle = array
      · obtain ⟨store, hholds⟩ := hrebuilds.holds
        rw [hhandle, hholds.get?_eq, hget]
        simp
      · rw [hrebuilds.others_eq handle hhandle]

/-- A new object closes no circle, since nothing refers to it yet. -/
theorem Grounded.add (hgrounded : before.Grounded) (object : Object) {header : Header}
    {objects : List Object} (hnew : ∀ other, before.header object ≠ .ok other)
    (hself : after.header object = .ok header)
    (hothers : ∀ other ≠ object, ∀ otherHeader,
      after.header other = .ok otherHeader ↔ before.header other = .ok otherHeader)
    (hproto : before.Descends header.proto objects) : after.Grounded := by
  apply hgrounded.extend
  · intro other otherHeader hother
    have hne : other ≠ object := by
      intro heq
      exact hnew otherHeader (heq ▸ hother)
    exact (hothers other hne otherHeader).2 hother
  · intro other otherHeader hother
    by_cases heq : other = object
    · rw [heq, hself, Except.ok.injEq] at hother
      exact .inr ⟨objects, hother ▸ hproto⟩
    · exact .inl ((hothers other heq otherHeader).1 hother)

theorem Grounded.pushObject (hgrounded : before.Grounded)
    (harena : before.objects.WellFormed) {record : ObjectRecord} {objects : List Object}
    (hproto : before.Descends record.header.proto objects) :
    Grounded { before with objects := (before.objects.push record).2 } := by
  refine hgrounded.add (.ordinary (before.objects.push record).1) ?_ ?_ ?_ hproto
  · intro header hheader
    obtain ⟨stored, hget, _⟩ := header_ordinary_eq_ok_iff.1 hheader
    rw [Arena.get?_push_fst harena] at hget
    contradiction
  · exact header_ordinary_eq_ok_iff.2 ⟨record, Arena.get?_push_self harena record, rfl⟩
  · intro other hne header
    cases other with
    | array handle => exact Iff.rfl
    | ordinary handle =>
        have hhandle : handle ≠ (before.objects.push record).1 :=
          fun heq => hne (congrArg Object.ordinary heq)
        rw [header_ordinary_eq_ok_iff, header_ordinary_eq_ok_iff, Arena.get?_push_of_ne hhandle]

theorem Grounded.withArray (hgrounded : before.Grounded) (hsound : before.Sound)
    {record : ArrayRecord} {objects : List Object}
    (hproto : before.Descends record.header.proto objects) :
    (before.withArray record).Grounded := by
  refine hgrounded.add (.array (before.nextArray record)) ?_ ?_ ?_ hproto
  · intro header hheader
    obtain ⟨stored, hget, _⟩ := header_array_eq_ok_iff.1 hheader
    rw [get?_nextArray hsound] at hget
    contradiction
  · exact header_array_eq_ok_iff.2 ⟨record, get?_withArray_self hsound record, rfl⟩
  · intro other hne header
    cases other with
    | ordinary handle => exact Iff.rfl
    | array handle =>
        have hhandle : handle ≠ before.nextArray record :=
          fun heq => hne (congrArg Object.array heq)
        rw [header_array_eq_ok_iff, header_array_eq_ok_iff, get?_withArray_of_ne hhandle]

end Heap

namespace Renaming

variable {ρ : Renaming} {first second : Heap}

theorem elements_mono {σ : Renaming} (hle : ρ ≤ σ) {elements others : Option (List Value)}
    (helements : Option.Rel (List.Forall₂ ρ.Values) elements others) :
    Option.Rel (List.Forall₂ σ.Values) elements others :=
  rel_mono (fun _ _ hforall => hforall.imp fun _ _ => Values.mono hle) helements

namespace Corresponds

variable (hcorr : ρ.Corresponds first second)

include hcorr

/-! ## New entities -/

/-- A pair of new entities that are not arrays leaves the arrays as they are. -/
theorem insert {kind : Kind} (hkind : Kind.array ≠ kind ∧ Kind.store ≠ kind) {left right : Nat}
    {after afterOther : Heap} (hsame : first.SamePlacement after)
    (hsameOther : second.SamePlacement afterOther) (harenas : after.ArenasWellFormed)
    (harenasOther : afterOther.ArenasWellFormed) (hgrounded : after.Grounded)
    (harrays : after.arrays = first.arrays) (harraysOther : afterOther.arrays = second.arrays)
    (hobjects : Arena.Matches ((ρ.insert kind left right).pairs .object)
      (ρ.insert kind left right).ObjectRecords after.objects afterOther.objects)
    (hclosures : Arena.Matches ((ρ.insert kind left right).pairs .closure)
      (ρ.insert kind left right).ClosureRecords after.closures afterOther.closures)
    (hnumbers : Arena.Matches ((ρ.insert kind left right).pairs .number) Eq after.numbers
      afterOther.numbers)
    (hstrings : Arena.Matches ((ρ.insert kind left right).pairs .string) Eq after.strings
      afterOther.strings) :
    (ρ.insert kind left right).Corresponds after afterOther where
  sound := hsame.sound hcorr.sound harenas
  sound_other := hsameOther.sound hcorr.sound_other harenasOther
  grounded := hgrounded
  arrays := by
    rw [harrays, harraysOther]
    exact hcorr.arrays.insert_of_ne hkind.1 fun _ _ => ArrayRecords.mono (le_insert ρ _ _ _)
  elements := by
    intro left right hpair
    rw [hsame.elements?_eq, hsameOther.elements?_eq]
    exact elements_mono (le_insert ρ _ _ _)
      (hcorr.elements ((pairs_insert_of_ne hkind.1).1 hpair))
  objects := hobjects
  closures := hclosures
  numbers := hnumbers
  strings := hstrings
  stores := by
    intro left right hpair
    exact hcorr.stores left right ((pairs_insert_of_ne hkind.2).1 hpair)
  permanent := by
    intro value hvalue
    exact (hcorr.permanent value hvalue).mono (le_insert ρ _ _ _)

theorem pushString (text : String) :
    (ρ.insert .string (first.strings.push text).1.slot
        (second.strings.push text).1.slot).Corresponds
      { first with strings := (first.strings.push text).2 }
      { second with strings := (second.strings.push text).2 } := by
  have hleft := hcorr.sound.arenas
  have hright := hcorr.sound_other.arenas
  have hle := le_insert ρ .string (first.strings.push text).1.slot
    (second.strings.push text).1.slot
  refine hcorr.insert ⟨by decide, by decide⟩ (.of_eq rfl rfl) (.of_eq rfl rfl)
    { hleft with strings := hleft.strings.push text }
    { hright with strings := hright.strings.push text }
    (hcorr.grounded.of_header_iff fun _ _ => Iff.rfl) rfl rfl ?_ ?_ ?_ ?_
  · exact hcorr.objects.insert_of_ne (by decide) fun _ _ => ObjectRecords.mono hle
  · exact hcorr.closures.insert_of_ne (by decide) fun _ _ => ClosureRecords.mono hle
  · exact hcorr.numbers.insert_of_ne (by decide) fun _ _ => id
  · exact hcorr.strings.push hleft.strings hright.strings (fun _ _ => id) rfl
      fun _ _ => pairs_insert_iff

theorem pushNumber (x : Binary64) :
    (ρ.insert .number (first.numbers.push x).1.slot
        (second.numbers.push x).1.slot).Corresponds
      { first with numbers := (first.numbers.push x).2 }
      { second with numbers := (second.numbers.push x).2 } := by
  have hleft := hcorr.sound.arenas
  have hright := hcorr.sound_other.arenas
  have hle := le_insert ρ .number (first.numbers.push x).1.slot (second.numbers.push x).1.slot
  refine hcorr.insert ⟨by decide, by decide⟩ (.of_eq rfl rfl) (.of_eq rfl rfl)
    { hleft with numbers := hleft.numbers.push x }
    { hright with numbers := hright.numbers.push x }
    (hcorr.grounded.of_header_iff fun _ _ => Iff.rfl) rfl rfl ?_ ?_ ?_ ?_
  · exact hcorr.objects.insert_of_ne (by decide) fun _ _ => ObjectRecords.mono hle
  · exact hcorr.closures.insert_of_ne (by decide) fun _ _ => ClosureRecords.mono hle
  · exact hcorr.numbers.push hleft.numbers hright.numbers (fun _ _ => id) rfl
      fun _ _ => pairs_insert_iff
  · exact hcorr.strings.insert_of_ne (by decide) fun _ _ => id

theorem pushClosure {record other : ClosureRecord} (hrecords : ρ.ClosureRecords record other) :
    (ρ.insert .closure (first.closures.push record).1.slot
        (second.closures.push other).1.slot).Corresponds
      { first with closures := (first.closures.push record).2 }
      { second with closures := (second.closures.push other).2 } := by
  have hleft := hcorr.sound.arenas
  have hright := hcorr.sound_other.arenas
  have hle := le_insert ρ .closure (first.closures.push record).1.slot
    (second.closures.push other).1.slot
  refine hcorr.insert ⟨by decide, by decide⟩ (.of_eq rfl rfl) (.of_eq rfl rfl)
    { hleft with closures := hleft.closures.push record }
    { hright with closures := hright.closures.push other }
    (hcorr.grounded.of_header_iff fun _ _ => Iff.rfl) rfl rfl ?_ ?_ ?_ ?_
  · exact hcorr.objects.insert_of_ne (by decide) fun _ _ => ObjectRecords.mono hle
  · exact hcorr.closures.push hleft.closures hright.closures (fun _ _ => ClosureRecords.mono hle)
      (hrecords.mono hle) fun _ _ => pairs_insert_iff
  · exact hcorr.numbers.insert_of_ne (by decide) fun _ _ => id
  · exact hcorr.strings.insert_of_ne (by decide) fun _ _ => id

theorem pushObject {record other : ObjectRecord} (hrecords : ρ.ObjectRecords record other) :
    (ρ.insert .object (first.objects.push record).1.slot
        (second.objects.push other).1.slot).Corresponds
      { first with objects := (first.objects.push record).2 }
      { second with objects := (second.objects.push other).2 } := by
  have hleft := hcorr.sound.arenas
  have hright := hcorr.sound_other.arenas
  have hle := le_insert ρ .object (first.objects.push record).1.slot
    (second.objects.push other).1.slot
  obtain ⟨_, _, hproto, _, _⟩ := hcorr.chains hrecords.header.proto
  refine hcorr.insert ⟨by decide, by decide⟩ (.of_eq rfl rfl) (.of_eq rfl rfl)
    { hleft with objects := hleft.objects.push record }
    { hright with objects := hright.objects.push other }
    (hcorr.grounded.pushObject hleft.objects hproto) rfl rfl ?_ ?_ ?_ ?_
  · exact hcorr.objects.push hleft.objects hright.objects (fun _ _ => ObjectRecords.mono hle)
      (hrecords.mono hle) fun _ _ => pairs_insert_iff
  · exact hcorr.closures.insert_of_ne (by decide) fun _ _ => ClosureRecords.mono hle
  · exact hcorr.numbers.insert_of_ne (by decide) fun _ _ => id
  · exact hcorr.strings.insert_of_ne (by decide) fun _ _ => id

theorem arrayRecords_ofTag (tag : UInt32) : ρ.ArrayRecords (.ofTag tag) (.ofTag tag) where
  header := ⟨.some (.of_toValue hcorr.pairs_arrayPrototype), .nil, rfl⟩
  window_eq := rfl

theorem withArray (tag : UInt32) :
    (ρ.insert .array (first.nextArray (.ofTag tag)).slot
        (second.nextArray (.ofTag tag)).slot).Corresponds
      (first.withArray (.ofTag tag)) (second.withArray (.ofTag tag)) := by
  obtain ⟨σ, hσ⟩ : ∃ σ, σ = ρ.insert .array (first.nextArray (.ofTag tag)).slot
    (second.nextArray (.ofTag tag)).slot := ⟨_, rfl⟩
  have hle : ρ ≤ σ := hσ ▸ le_insert ρ _ _ _
  have hrecords := hcorr.arrayRecords_ofTag tag
  obtain ⟨_, _, hproto, _, _⟩ := hcorr.chains hrecords.header.proto
  have hpairs : ∀ left right, σ.pairs .array left right ↔ ρ.pairs .array left right ∨
      (left = (first.nextArray (.ofTag tag)).slot ∧
        right = (second.nextArray (.ofTag tag)).slot) := by
    intro left right
    rw [hσ, pairs_insert_iff]
  have hnew := (hpairs _ _).2 (.inr ⟨rfl, rfl⟩)
  have harrays : Arena.Matches (σ.pairs .array) σ.ArrayRecords
      (first.withArray (.ofTag tag)).arrays (second.withArray (.ofTag tag)).arrays :=
    hcorr.arrays.push hcorr.sound.arenas.arrays hcorr.sound_other.arenas.arrays
      (fun _ _ => ArrayRecords.mono hle) (hrecords.mono hle) hpairs
  rw [← hσ]
  constructor
  · exact Heap.sound_withArray hcorr.sound tag
  · exact Heap.sound_withArray hcorr.sound_other tag
  · exact hcorr.grounded.withArray hcorr.sound hproto
  · exact harrays
  · intro left right hpair
    rw [Heap.elements?_withArray hcorr.sound, Heap.elements?_withArray hcorr.sound_other]
    by_cases hleft : left = first.nextArray (.ofTag tag)
    · have hright : right = second.nextArray (.ofTag tag) := by
        rw [hleft] at hpair
        exact handle_eq_iff.2 (harrays.right_unique hpair hnew)
      simp only [Lists.set, if_pos hleft, if_pos hright]
      exact .some .nil
    · have hright : right ≠ second.nextArray (.ofTag tag) := by
        intro hright
        rw [hright] at hpair
        exact hleft (handle_eq_iff.2 (harrays.left_unique hpair hnew))
      simp only [Lists.set, if_neg hleft, if_neg hright]
      rcases (hpairs _ _).1 hpair with hold | ⟨hslot, _⟩
      · exact elements_mono hle (hcorr.elements hold)
      · exact absurd (handle_eq_iff.2 hslot) hleft
  · rw [hσ] at hle ⊢
    exact hcorr.objects.insert_of_ne (by decide) fun _ _ => ObjectRecords.mono hle
  · rw [hσ] at hle ⊢
    exact hcorr.closures.insert_of_ne (by decide) fun _ _ => ClosureRecords.mono hle
  · rw [hσ]
    exact hcorr.numbers.insert_of_ne (by decide) fun _ _ => id
  · rw [hσ]
    exact hcorr.strings.insert_of_ne (by decide) fun _ _ => id
  · intro left right hpair
    rw [hσ] at hpair
    exact hcorr.stores left right ((pairs_insert_of_ne (by decide)).1 hpair)
  · intro value hvalue
    exact (hcorr.permanent value hvalue).mono hle

/-! ## Changes of paired entities -/

theorem changeHeader {left right : Object} (hobjects : ρ.Objects left right)
    {change otherChange : Header → Header}
    (hchange : ∀ header other, first.header left = .ok header → ρ.Headers header other →
      ρ.Headers (change header) (otherChange other))
    (hgrounded : (first.changeHeader left change).Grounded) :
    ρ.Corresponds (first.changeHeader left change) (second.changeHeader right otherChange) := by
  have hsound := hcorr.sound.changeHeader left change
  have hsoundOther := hcorr.sound_other.changeHeader right otherChange
  have hsame := Heap.samePlacement_changeHeader first left change
  have hsameOther := Heap.samePlacement_changeHeader second right otherChange
  have helements : ∀ {array other : ArrayHandle}, ρ.pairs .array array.slot other.slot →
      Option.Rel (List.Forall₂ ρ.Values) ((first.changeHeader left change).elements? array)
        ((second.changeHeader right otherChange).elements? other) := by
    intro array other hpair
    rw [hsame.elements?_eq, hsameOther.elements?_eq]
    exact hcorr.elements hpair
  cases hobjects with
  | ordinary hpair =>
      refine ⟨hsound, hsoundOther, hgrounded, hcorr.arrays, helements, ?_, hcorr.closures,
        hcorr.numbers, hcorr.strings, hcorr.stores, hcorr.permanent⟩
      apply hcorr.objects.modify hpair
      intro record other hleft _ hrecords
      refine ⟨hchange _ _ ?_ hrecords.header, hrecords.map_eq, hrecords.fields⟩
      exact Heap.header_ordinary_eq_ok_iff.2 ⟨record, hleft, rfl⟩
  | array hpair =>
      refine ⟨hsound, hsoundOther, hgrounded, ?_, helements, hcorr.objects, hcorr.closures,
        hcorr.numbers, hcorr.strings, hcorr.stores, hcorr.permanent⟩
      apply hcorr.arrays.modify hpair
      intro record other hleft _ hrecords
      refine ⟨hchange _ _ ?_ hrecords.header, hrecords.window_eq⟩
      exact Heap.header_array_eq_ok_iff.2 ⟨record, hleft, rfl⟩

theorem insertProperty {left right : Object} (hobjects : ρ.Objects left right) (key : String)
    {value other : Value} (hvalues : ρ.Values value other) :
    ρ.Corresponds
      (first.changeHeader left fun header => { header with bag := header.bag.insert key value })
      (second.changeHeader right fun header =>
        { header with bag := header.bag.insert key other }) := by
  apply hcorr.changeHeader hobjects
  · intro header otherHeader _ hheaders
    exact ⟨hheaders.proto, Entries.insertEntry hheaders.bag key hvalues, hheaders.tag_eq⟩
  · obtain ⟨header, _, hheader, _, _⟩ := hcorr.header hobjects
    obtain ⟨_, hdescends⟩ := hcorr.grounded left header hheader
    apply hcorr.grounded.changeHeader hheader
    have hnodup := hdescends.nodup
    cases hdescends with
    | cons hself hrest =>
        rw [hheader, Except.ok.injEq] at hself
        subst hself
        exact ⟨_, hrest, (List.nodup_cons.1 hnodup).1⟩

theorem replaceProto {left right : Object} (hobjects : ρ.Objects left right)
    {proto other : Option Object} (hproto : Option.Rel ρ.Objects proto other)
    {objects : List Object} (hdescends : first.Descends proto objects)
    (havoids : left ∉ objects) :
    ρ.Corresponds (first.changeHeader left fun header => { header with proto := proto })
      (second.changeHeader right fun header => { header with proto := other }) := by
  apply hcorr.changeHeader hobjects
  · intro header otherHeader _ hheaders
    exact ⟨hproto, hheaders.bag, hheaders.tag_eq⟩
  · obtain ⟨header, _, hheader, _, _⟩ := hcorr.header hobjects
    exact hcorr.grounded.changeHeader hheader ⟨objects, hdescends, havoids⟩

theorem setField {left right : ObjectHandle} (hpair : ρ.pairs .object left.slot right.slot)
    (slot : Nat) {value other : Value} (hvalues : ρ.Values value other) :
    ρ.Corresponds
      { first with
        objects := first.objects.modify left fun record =>
          { record with fields := record.fields.setIfInBounds slot value } }
      { second with
        objects := second.objects.modify right fun record =>
          { record with fields := record.fields.setIfInBounds slot other } } := by
  have hsound : ∀ {heap : Heap} {objects : Arena .object ObjectRecord}, heap.Sound →
      objects.WellFormed → Heap.Sound { heap with objects := objects } := by
    intro heap objects hsound hobjects
    have hsame : heap.SamePlacement { heap with objects := objects } := .of_eq rfl rfl
    exact hsame.sound hsound { hsound.arenas with objects := hobjects }
  refine ⟨?_, ?_, ?_, hcorr.arrays, hcorr.elements, ?_, hcorr.closures, hcorr.numbers,
    hcorr.strings, hcorr.stores, hcorr.permanent⟩
  · exact hsound hcorr.sound (hcorr.sound.arenas.objects.modify left _)
  · exact hsound hcorr.sound_other (hcorr.sound_other.arenas.objects.modify right _)
  · apply hcorr.grounded.of_header_iff
    intro object header
    cases object with
    | array handle => exact Iff.rfl
    | ordinary handle =>
        rw [Heap.header_ordinary_eq_ok_iff, Heap.header_ordinary_eq_ok_iff]
        by_cases hhandle : handle = left
        · rw [hhandle, Arena.get?_modify_self]
          cases first.objects.get? left <;> simp
        · rw [Arena.get?_modify_of_ne _ _ hhandle]
  · apply hcorr.objects.modify hpair
    intro record otherRecord _ _ hrecords
    refine ⟨hrecords.header, hrecords.map_eq, ?_⟩
    simp only [Array.toList_setIfInBounds]
    exact Values.set hrecords.fields slot hvalues

/-- Paired arrays get bodies that correspond. -/
theorem rebuilds {left right : ArrayHandle} (hpair : ρ.pairs .array left.slot right.slot)
    {record other : ArrayRecord} {next otherNext : Body} {after afterOther : Heap}
    (hget : first.arrays.get? left = some record) (hrecords : ρ.ArrayRecords record other)
    (hrebuilds : first.Rebuilds after left record next)
    (hrebuildsOther : second.Rebuilds afterOther right other otherNext)
    (hbodies : ρ.Bodies next otherNext) : ρ.Corresponds after afterOther := by
  obtain ⟨store, hnext⟩ := hrebuilds.holds
  obtain ⟨otherStore, hotherNext⟩ := hrebuildsOther.holds
  constructor
  · exact hrebuilds.sound
  · exact hrebuildsOther.sound
  · exact hcorr.grounded.of_header_iff (hrebuilds.header_eq_ok_iff hget)
  · refine hcorr.arrays.update hpair ?_ hnext.get?_eq hotherNext.get?_eq hrebuilds.others_eq
      hrebuildsOther.others_eq
    exact ⟨hrecords.header, hbodies.window_eq⟩
  · intro array target harrays
    rw [hrebuilds.elements?_eq hcorr.sound, hrebuildsOther.elements?_eq hcorr.sound_other]
    by_cases harray : array = left
    · have htarget : target = right := by
        rw [harray] at harrays
        exact handle_eq_iff.2 (hcorr.arrays.right_unique harrays hpair)
      simp only [Lists.set, if_pos harray, if_pos htarget]
      exact .some hbodies.elements
    · have htarget : target ≠ right := by
        intro htarget
        rw [htarget] at harrays
        exact harray (handle_eq_iff.2 (hcorr.arrays.left_unique harrays hpair))
      simp only [Lists.set, if_neg harray, if_neg htarget]
      exact hcorr.elements harrays
  · rw [hrebuilds.objects_eq, hrebuildsOther.objects_eq]
    exact hcorr.objects
  · rw [hrebuilds.closures_eq, hrebuildsOther.closures_eq]
    exact hcorr.closures
  · rw [hrebuilds.numbers_eq, hrebuildsOther.numbers_eq]
    exact hcorr.numbers
  · rw [hrebuilds.strings_eq, hrebuildsOther.strings_eq]
    exact hcorr.strings
  · exact hcorr.stores
  · exact hcorr.permanent

end Corresponds

end Renaming

end ManagedHeap
