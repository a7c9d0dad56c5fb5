import ManagedHeap.Proofs.Equipment
import ManagedHeap.Proofs.PrototypeRuns

/-!
# Writing properties

A write that is taken gives one object one property of its own, be it in a field, in the
bag, or as the length of an array.  Every look-up that comes to that object first finds
the new value, and every other look-up finds what it found before.
-/

namespace ManagedHeap

open ManagedHeap.Action

theorem Arena.map_deref_modify {kind : Kind} {α β : Type} (arena : Arena kind α)
    (handle other : Handle kind) {change : α → α} {view : α → β}
    (hview : ∀ entity, view (change entity) = view entity) :
    ((arena.modify handle change).deref other).map view = (arena.deref other).map view := by
  by_cases hother : other = handle
  · rw [hother, deref_modify_self]
    cases arena.deref handle with
    | error cause => rfl
    | ok entity => exact congrArg Except.ok (hview entity)
  · rw [deref_modify_of_ne _ _ hother]

namespace ObjectMap

variable {map : ObjectMap} {key : String} {slot : Nat}

theorem getElem?_of_slotOf? (hslot : map.slotOf? key = some slot) :
    map.fields[slot]? = some key := by
  unfold slotOf? at hslot
  obtain ⟨hlt, hkey, _⟩ := List.findIdx?_eq_some_iff_getElem.1 hslot
  rw [List.getElem?_eq_getElem hlt, of_decide_eq_true hkey]

/-- Different names have different slots. -/
theorem slotOf?_eq_some_iff (hslot : map.slotOf? key = some slot) {name : String} :
    map.slotOf? name = some slot ↔ name = key := by
  constructor
  · intro hname
    have hfield := getElem?_of_slotOf? hname
    rw [getElem?_of_slotOf? hslot, Option.some.injEq] at hfield
    exact hfield.symm
  · intro hname
    rw [hname, hslot]

theorem isSome_slotOf? (map : ObjectMap) (key : String) :
    (map.slotOf? key).isSome = decide (key ∈ map.fields) := by
  unfold slotOf?
  rw [List.findIdx?_isSome, Bool.eq_iff_iff, List.any_eq_true]
  simp

end ObjectMap

namespace Heap

/-- The map of the object names the property, or its bag has it. -/
def hasOwn (heap : Heap) (object : Object) (key : String) : Bool :=
  match heap.objectMap object, heap.header object with
  | .ok map, .ok header => decide (key ∈ map.fields) || (header.bag.get? key).isSome
  | _, _ => false

/-- The first object on a prototype chain that has the property itself. -/
def nearestOwner? (heap : Heap) (start : Object) (key : String) : Option Object :=
  (heap.chainFrom (some start)).objects.find? fun owner => heap.hasOwn owner key

/-- Arrays have no place for their methods, and their length can only be raised, and only
within the capacity. -/
def RefusesWrite (heap : Heap) (object : Object) (key : String) (value : Value) : Prop :=
  ∃ array record, object = .array array ∧ heap.arrays.get? array = some record ∧
    (key ∈ ["pop", "push", "shift", "unshift"] ∨
      key = "length" ∧ ∀ n, value = .integer n →
        ¬(record.window.length ≤ n.toInt ∧ n.toInt ≤ record.window.capacity))

/-- The second heap is the first with one property of one object replaced or added. -/
structure SetsOwn (before after : Heap) (object : Object) (key : String) (value : Value) :
    Prop where
  proto_eq : ∀ other header, before.header other = .ok header →
    ∃ now, after.header other = .ok now ∧ now.proto = header.proto
  own?_eq : ∀ other name, after.own? other name =
    if other = object ∧ name = key then some value else before.own? other name

variable {heap before after : Heap} {object : Object} {key : String} {value : Value}

/-! ## Reading after a write -/

theorem isSome_own? (heap : Heap) (object : Object) (key : String) :
    (heap.own? object key).isSome = heap.hasOwn object key := by
  unfold own? hasOwn
  cases hmap : heap.objectMap object with
  | error cause => rfl
  | ok map =>
      cases hheader : heap.header object with
      | error cause => rfl
      | ok header =>
          simp only [← ObjectMap.isSome_slotOf?]
          cases map.slotOf? key with
          | none => rfl
          | some slot =>
              -- An object that has a map can be read in every slot.
              have hfield : (heap.field object slot).toOption.isSome := by
                cases object with
                | ordinary handle | array handle =>
                    simp only [objectMap, field] at hmap ⊢
                    cases hderef : Arena.deref _ handle with
                    | error cause =>
                        rw [hderef] at hmap
                        contradiction
                    | ok record => rfl
              simpa using hfield

/-- Along a list of objects, the new value is found where the written object is the
first to have the property. -/
theorem SetsOwn.findSome?_own? (hsets : before.SetsOwn after object key value)
    (owners : List Object) (name : String) :
    (owners.findSome? fun owner => after.own? owner name) =
      if name = key ∧ (owners.find? fun owner => after.hasOwn owner key) = some object then
        some value
      else owners.findSome? fun owner => before.own? owner name := by
  induction owners with
  | nil => simp
  | cons owner rest ih =>
      rw [List.findSome?_cons, List.findSome?_cons, List.find?_cons, ih,
        hsets.own?_eq owner name, ← isSome_own? after owner key, hsets.own?_eq owner key]
      by_cases howner : owner = object
      · by_cases hname : name = key
        · simp [howner, hname]
        · simp [howner, hname]
      · by_cases hname : name = key
        · cases hown : before.own? owner key <;> simp [howner, hname, hown]
        · simp [howner, hname]

theorem SetsOwn.property_eq (hsets : before.SetsOwn after object key value) {reader : Object}
    {owners : List Object} (hdescends : before.Descends (some reader) owners)
    (name : String) :
    ∃ found, before.property reader name = .ok found ∧
      after.property reader name =
        .ok (if name = key ∧ after.nearestOwner? reader key = some object then value
          else found) := by
  have hafter : after.Descends (some reader) owners := by
    apply hdescends.of_headers
    intro other header _ hheader
    exact hsets.proto_eq other header hheader
  refine ⟨_, hdescends.property_eq name, ?_⟩
  rw [hafter.property_eq, hsets.findSome?_own?, nearestOwner?, hafter.chainFrom_eq]
  split <;> rfl

/-! ## The places that are written to -/

theorem own?_eq_of_map {map : ObjectMap} {header : Header}
    (hmap : heap.objectMap object = .ok map) (hheader : heap.header object = .ok header)
    (name : String) :
    heap.own? object name =
      match map.slotOf? name with
      | some slot => (heap.field object slot).toOption
      | none => header.bag.get? name := by
  cases hslot : map.slotOf? name with
  | none => simp only [own?, hmap, hheader, hslot]
  | some slot => simp only [own?, hmap, hheader, hslot]

theorem own?_congr (hmap : after.objectMap object = before.objectMap object)
    (hheader : after.header object = before.header object)
    (hfield : ∀ slot, after.field object slot = before.field object slot) (name : String) :
    after.own? object name = before.own? object name := by
  unfold own?
  simp only [hmap, hheader, hfield]

theorem objectMap_changeHeader (heap : Heap) (object other : Object)
    (change : Header → Header) :
    (heap.changeHeader object change).objectMap other = heap.objectMap other := by
  cases object <;> cases other <;> first
    | rfl
    | exact Arena.map_deref_modify _ _ _ fun _ => rfl

theorem field_changeHeader (heap : Heap) (object other : Object) (change : Header → Header)
    (slot : Nat) : (heap.changeHeader object change).field other slot = heap.field other slot := by
  cases object <;> cases other <;> first
    | rfl
    | exact Arena.map_deref_modify _ _ _ fun _ => rfl

/-- A property that the map does not name goes into the bag. -/
theorem setsOwn_bag {map : ObjectMap} {header : Header}
    (hmap : heap.objectMap object = .ok map) (hheader : heap.header object = .ok header)
    (hslot : map.slotOf? key = none) (value : Value) :
    heap.SetsOwn
      (heap.changeHeader object fun header => { header with bag := header.bag.insert key value })
      object key value where
  proto_eq := by
    intro other old hold
    by_cases hother : other = object
    · subst hother
      rw [header_changeHeader_self, hold]
      exact ⟨_, rfl, rfl⟩
    · rw [header_changeHeader_of_ne _ _ hother]
      exact ⟨old, hold, rfl⟩
  own?_eq := by
    intro other name
    by_cases hother : other = object
    · subst hother
      have hself := header_changeHeader_self heap other
        fun header => { header with bag := header.bag.insert key value }
      rw [hheader] at hself
      rw [own?_eq_of_map ((objectMap_changeHeader _ _ _ _).trans hmap) hself,
        own?_eq_of_map hmap hheader]
      cases hname : map.slotOf? name with
      | none =>
          simp only [Bindings.get?_insert, true_and]
      | some slot =>
          have hne : name ≠ key := by
            intro heq
            rw [heq, hslot] at hname
            contradiction
          simp only [field_changeHeader, hne, and_false, if_false]
    · rw [if_neg fun h => hother h.1]
      exact own?_congr (objectMap_changeHeader _ _ _ _) (header_changeHeader_of_ne _ _ hother)
        (field_changeHeader _ _ _ _) name

/-- A property that the map names goes into its field, and no other field changes. -/
theorem setsOwn_field {map : ObjectMap} {header : Header} {slot : Nat}
    (hmap : before.objectMap object = .ok map) (hheader : before.header object = .ok header)
    (hslot : map.slotOf? key = some slot)
    (hmaps : ∀ other, after.objectMap other = before.objectMap other)
    (hheaders : ∀ other, after.header other = before.header other)
    (hwritten : after.field object slot = .ok value)
    (hfields : ∀ other position, (other = object → position ≠ slot) →
      after.field other position = before.field other position) :
    before.SetsOwn after object key value where
  proto_eq := by
    intro other old hold
    rw [hheaders]
    exact ⟨old, hold, rfl⟩
  own?_eq := by
    intro other name
    by_cases hother : other = object
    · subst hother
      have hsame : map.slotOf? name = some slot ↔ name = key :=
        ObjectMap.slotOf?_eq_some_iff hslot
      rw [own?_eq_of_map ((hmaps other).trans hmap) ((hheaders other).trans hheader),
        own?_eq_of_map hmap hheader]
      cases hname : map.slotOf? name with
      | none =>
          rw [hname] at hsame
          rw [if_neg fun h => absurd (hsame.2 h.2) (by simp)]
      | some position =>
          rw [hname, Option.some.injEq] at hsame
          simp only [true_and, ← hsame]
          by_cases hposition : position = slot
          · rw [if_pos hposition, hposition, hwritten]
            rfl
          · rw [if_neg hposition, hfields _ _ fun _ => hposition]
    · rw [if_neg fun h => hother h.1]
      exact own?_congr (hmaps other) (hheaders other)
        (fun position => hfields other position fun heq => absurd heq hother) name

theorem setsOwn_writeField {handle : ObjectHandle} {record : ObjectRecord} {slot : Nat}
    (hget : heap.objects.get? handle = some record)
    (hslot : record.map.slotOf? key = some slot) (hfits : slot < record.fields.size)
    (value : Value) :
    heap.SetsOwn (heap.writeField handle slot value) (.ordinary handle) key value := by
  have hderef := Arena.deref_eq_ok_iff.2 hget
  have hheader := header_ordinary_eq_ok_iff.2 ⟨record, hget, rfl⟩
  apply setsOwn_field (objectMap_ordinary hget) hheader hslot
  · intro other
    cases other with
    | ordinary other => exact Arena.map_deref_modify _ _ _ fun _ => rfl
    | array other => rfl
  · intro other
    cases other with
    | ordinary other => exact Arena.map_deref_modify _ _ _ fun _ => rfl
    | array other => rfl
  · simp only [field, writeField, Arena.deref_modify_self, hderef, Except.map,
      Array.getElem?_setIfInBounds_self_of_lt hfits, Option.getD_some]
  · intro other position hother
    cases other with
    | array other => rfl
    | ordinary other =>
        by_cases hsame : other = handle
        · have hposition : slot ≠ position := (hother (congrArg Object.ordinary hsame)).symm
          simp only [hsame, field, writeField, Arena.deref_modify_self, hderef, Except.map,
            Array.getElem?_setIfInBounds_ne hposition]
        · simp only [field, writeField, Arena.deref_modify_of_ne _ _ hsame]

/-- The length of an array is read from its window, and the other fields are not. -/
theorem setsOwn_length {array : ArrayHandle} {record : ArrayRecord} {slot length : Nat}
    (hget : heap.arrays.get? array = some record)
    (hslot : ObjectMap.array.slotOf? key = some slot)
    (hlength : record.window.fieldLength? slot value = some length) :
    heap.SetsOwn (heap.withWindow array { record.window with length := length })
      (.array array) key value := by
  have hderef := Arena.deref_eq_ok_iff.2 hget
  have hheader := header_array_eq_ok_iff.2 ⟨record, hget, rfl⟩
  obtain ⟨rfl, n, rfl, hn, -⟩ := Window.fieldLength?_eq_some_iff.1 hlength
  apply setsOwn_field (objectMap_array hget) hheader hslot
  · intro other
    cases other with
    | ordinary other => rfl
    | array other => exact Arena.map_deref_modify _ _ _ fun _ => rfl
  · intro other
    cases other with
    | ordinary other => rfl
    | array other => exact Arena.map_deref_modify _ _ _ fun _ => rfl
  · have hword : Int32.ofNat length = n := by
      rw [← Int32.ofInt_toInt n, hn, Int32.ofInt_eq_ofNat]
    simp only [field, withWindow, Arena.deref_modify_self, hderef, Except.map, arrayField, hword]
  · intro other position hother
    cases other with
    | ordinary other => rfl
    | array other =>
        by_cases hsame : other = array
        · have hposition : position ≠ 0 := hother (congrArg Object.array hsame)
          obtain ⟨earlier, rfl⟩ := Nat.exists_eq_succ_of_ne_zero hposition
          simp only [hsame, field, withWindow, Arena.deref_modify_self, hderef, Except.map]
          congr 1
          rcases earlier with _ | _ | _ | _ | _ <;> rfl
        · simp only [field, withWindow, Arena.deref_modify_of_ne _ _ hsame]

/-! ## Which writes are taken -/

theorem not_refusesWrite_ordinary (heap : Heap) (handle : ObjectHandle) (key : String)
    (value : Value) : ¬heap.RefusesWrite (.ordinary handle) key value := by
  rintro ⟨array, record, hobject, -⟩
  contradiction

theorem refusesWrite_array_iff {array : ArrayHandle} {record : ArrayRecord}
    (hget : heap.arrays.get? array = some record) :
    heap.RefusesWrite (.array array) key value ↔
      ∃ slot, ObjectMap.array.slotOf? key = some slot ∧
        record.window.fieldLength? slot value = none := by
  have hlength : record.window.fieldLength? 0 value = none ↔
      ∀ n, value = .integer n →
        ¬(record.window.length ≤ n.toInt ∧ n.toInt ≤ record.window.capacity) := by
    constructor
    · rintro hnone n rfl hbounds
      have hsome : record.window.fieldLength? 0 (.integer n) = some n.toInt.toNat :=
        if_pos hbounds
      rw [hnone] at hsome
      contradiction
    · intro houtside
      rw [Option.eq_none_iff_forall_ne_some]
      intro length hsome
      obtain ⟨-, n, hvalue, hn, hmore, hroom⟩ := Window.fieldLength?_eq_some_iff.1 hsome
      exact houtside n hvalue (by omega)
  constructor
  · rintro ⟨other, found, hobject, hfound, hkey⟩
    cases hobject
    rw [hget, Option.some.injEq] at hfound
    subst hfound
    rcases hkey with hmethod | ⟨rfl, houtside⟩
    · simp only [List.mem_cons, List.not_mem_nil, or_false] at hmethod
      rcases hmethod with rfl | rfl | rfl | rfl
      · exact ⟨1, rfl, rfl⟩
      · exact ⟨2, rfl, rfl⟩
      · exact ⟨3, rfl, rfl⟩
      · exact ⟨4, rfl, rfl⟩
    · exact ⟨0, rfl, hlength.2 houtside⟩
  · rintro ⟨slot, hslot, hnone⟩
    refine ⟨array, record, rfl, hget, ?_⟩
    have hfield := ObjectMap.getElem?_of_slotOf? hslot
    cases slot with
    | zero => exact .inr ⟨(Option.some.inj hfield).symm, hlength.1 hnone⟩
    | succ earlier => exact .inl (List.mem_of_getElem? hfield)

end Heap

/-- The write is refused and nothing has changed, or it is taken and the property set. -/
def Outcome.Writes (outcome : Outcome Bool) (agent : Agent) (object : Object) (key : String)
    (value : Value) : Prop :=
  (agent.heap.RefusesWrite object key value ∧ outcome = (.ok false, agent)) ∨
    (¬agent.heap.RefusesWrite object key value ∧ ∃ after, outcome = (.ok true, after) ∧
      agent.heap.SetsOwn after.heap object key value)

namespace Object

variable {agent : Agent} {object : Object} {key : String}

theorem perform_setProperty {map : ObjectMap} (hmap : agent.heap.objectMap object = .ok map)
    (value : Value) :
    (object.setProperty key value).perform agent =
      match map.slotOf? key with
      | some slot => (object.setField slot value).perform agent
      | none =>
          (.ok true,
            { agent with
              heap := agent.heap.changeHeader object fun header =>
                { header with bag := header.bag.insert key value } }) := by
  unfold setProperty
  rw [perform_bind, perform_read, hmap, andThen_ok]
  cases map.slotOf? key with
  | some slot => rfl
  | none => simp only [perform_bind, perform_changeHeader, andThen_ok, perform_pure]

theorem perform_setField_ordinary {handle : ObjectHandle} {record : ObjectRecord}
    (hget : agent.heap.objects.get? handle = some record) {slot : Nat}
    (hfits : slot < record.fields.size) (value : Value) :
    ((Object.ordinary handle).setField slot value).perform agent =
      (.ok true, { agent with heap := agent.heap.writeField handle slot value }) := by
  unfold setField
  simp only
  rw [perform_bind, perform_read, Arena.deref_eq_ok_iff.2 hget, andThen_ok, perform_ite,
    if_pos hfits, perform_bind, perform_update, andThen_ok, perform_pure]
  rfl

theorem writes_setProperty (hequipped : agent.Equipped)
    (hlive : agent.heap.isLive object.entity = true) (key : String) (value : Value) :
    ((object.setProperty key value).perform agent).Writes agent object key value := by
  obtain ⟨header, hheader⟩ := Heap.exists_header_iff.2 hlive
  cases object with
  | ordinary handle =>
      obtain ⟨record, hget, rfl⟩ := Heap.header_ordinary_eq_ok_iff.1 hheader
      have hmap := Heap.objectMap_ordinary hget
      refine .inr ⟨Heap.not_refusesWrite_ordinary _ _ _ _, ?_⟩
      rw [perform_setProperty hmap]
      cases hslot : record.map.slotOf? key with
      | none => exact ⟨_, rfl, Heap.setsOwn_bag hmap hheader hslot value⟩
      | some slot =>
          have hfits : slot < record.fields.size := by
            rw [hequipped.heap.shapes handle record hget]
            exact (List.getElem?_eq_some_iff.1 (ObjectMap.getElem?_of_slotOf? hslot)).1
          simp only [perform_setField_ordinary hget hfits]
          exact ⟨_, rfl, Heap.setsOwn_writeField hget hslot hfits value⟩
  | array array =>
      obtain ⟨record, hget, rfl⟩ := Heap.header_array_eq_ok_iff.1 hheader
      have hmap := Heap.objectMap_array hget
      unfold Outcome.Writes
      rw [perform_setProperty hmap, Heap.refusesWrite_array_iff hget]
      cases hslot : ObjectMap.array.slotOf? key with
      | none => exact .inr ⟨by simp, _, rfl, Heap.setsOwn_bag hmap hheader hslot value⟩
      | some slot =>
          simp only [perform_setField_of_get? hget]
          cases hlength : record.window.fieldLength? slot value with
          | none => exact .inl ⟨⟨slot, rfl, hlength⟩, rfl⟩
          | some length =>
              refine .inr ⟨?_, _, rfl, Heap.setsOwn_length hget hslot hlength⟩
              rintro ⟨other, hother, hnone⟩
              rw [Option.some.injEq] at hother
              rw [← hother, hlength] at hnone
              contradiction

end Object

namespace Agent

/-- After a run whose operands are living at the time, a write to a living object is refused
only by an array, and then it changes nothing.  Any other write can be read back through
every object whose chain comes to the written one first, and changes no other property of
any object. -/
theorem property_writes_run (options : Options) {operations : List (Operation Value)}
    (hadmits : (start options).AdmitsAll operations) {object : Object}
    (hlive : ((start options).run operations).heap.isLive object.entity = true)
    (key : String) (value : Value) :
    let agent := (start options).run operations
    ∃ taken after, (object.setProperty key value).perform agent = (.ok taken, after) ∧
      (taken = false ↔ agent.heap.RefusesWrite object key value) ∧
      (taken = false → after = agent) ∧
      (taken = true → ∀ reader, agent.heap.isLive reader.entity = true → ∀ name,
        ∃ found, agent.heap.property reader name = .ok found ∧
          after.heap.property reader name =
            .ok (if name = key ∧ after.heap.nearestOwner? reader key = some object then value
              else found)) := by
  intro agent
  obtain ⟨ρ, other, hmirrors⟩ := (mirrored_start options).run hadmits
  have hgrounded : agent.heap.Grounded := hmirrors.heap.grounded
  rcases Object.writes_setProperty (equipped_run options operations) hlive key value with
    ⟨hrefused, houtcome⟩ | ⟨htaken, after, houtcome, hsets⟩
  · exact ⟨false, agent, houtcome, by simpa using hrefused, fun _ => rfl, by simp⟩
  · refine ⟨true, after, houtcome, by simpa using htaken, by simp, ?_⟩
    intro _ reader hreader name
    have hstart : ∀ first ∈ some reader, agent.heap.isLive first.entity = true := by
      intro first hfirst
      rw [Option.mem_some_iff] at hfirst
      rwa [← hfirst]
    obtain ⟨owners, hdescends⟩ := hgrounded.exists_descends hstart
    exact hsets.property_eq hdescends name

/-- A property of an array is inherited by one object and shadowed by another. -/
theorem property_writes_run_inherited :
    let agent := (start .standard).run
      [.newArray 0, .newObject .plain (some (.array ⟨0⟩)) 0,
        .newObject (.layout "Named" ["name"]) (some (.array ⟨0⟩)) 0]
    ∃ after, ((Object.array ⟨0⟩).setProperty "name" (.integer 7)).perform agent =
        (.ok true, after) ∧
      after.heap.property (.ordinary ⟨1⟩) "name" = .ok (.integer 7) ∧
      after.heap.property (.ordinary ⟨2⟩) "name" = .ok .undefined := by
  intro agent
  obtain ⟨taken, after, houtcome, hrefused, -, htaken⟩ :=
    @property_writes_run .standard
      [.newArray 0, .newObject .plain (some (.array ⟨0⟩)) 0,
        .newObject (.layout "Named" ["name"]) (some (.array ⟨0⟩)) 0]
      (by decide +kernel) (.array ⟨0⟩) (by decide +kernel) "name" (.integer 7)
  have hwritten : after =
      (((Object.array ⟨0⟩).setProperty "name" (.integer 7)).perform agent).2 :=
    (congrArg Prod.snd houtcome).symm
  have hanswer : Except.ok taken =
      (((Object.array ⟨0⟩).setProperty "name" (.integer 7)).perform agent).1 :=
    (congrArg Prod.fst houtcome).symm
  have hyes : taken = true := Except.ok.inj (hanswer.trans (by decide +kernel))
  subst hyes
  refine ⟨after, houtcome, ?_, ?_⟩
  · obtain ⟨found, -, hread⟩ := htaken rfl (.ordinary ⟨1⟩) (by decide +kernel) "name"
    have hnearest : after.heap.nearestOwner? (.ordinary ⟨1⟩) "name" = some (.array ⟨0⟩) := by
      rw [hwritten]
      decide +kernel
    rw [hread, hnearest]
    rfl
  · obtain ⟨found, hfound, hread⟩ := htaken rfl (.ordinary ⟨2⟩) (by decide +kernel) "name"
    have hnearest : after.heap.nearestOwner? (.ordinary ⟨2⟩) "name" = some (.ordinary ⟨2⟩) := by
      rw [hwritten]
      decide +kernel
    have hbefore : agent.heap.property (.ordinary ⟨2⟩) "name" = .ok .undefined := by
      decide +kernel
    have hundefined : found = .undefined := Except.ok.inj (hfound.symm.trans hbefore)
    rw [hread, hnearest, hundefined]
    rfl

end Agent

end ManagedHeap
