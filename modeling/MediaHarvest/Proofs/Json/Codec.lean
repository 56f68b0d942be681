import MediaHarvest.Json.Codec
import MediaHarvest.Proofs.Except
import MediaHarvest.Proofs.Json.Reading
import MediaHarvest.Proofs.SortedMap
import Mathlib.Data.List.Forall2

/-!
# Codecs that read back what they write

`Codec.ReadsBack` says that a codec takes the tree of what it wrote for a value to that value, from
whatever source, and that there is room for what it wrote.  The same is said of a `Shape` member by
member, so that it holds of a structure once it holds of the fields that the shape lists.
-/

namespace MediaHarvest.Json

variable {α β σ τ : Type}

/-- A codec reads back what it writes of a value. -/
structure Codec.ReadsBack (codec : Codec α) (room : Nat) (value : α) : Prop where
  /-- There is room for what is written. -/
  fits : (codec.encode value).Fits room
  /-- What is written is read as the value. -/
  back : ∀ source, codec.decode source (codec.encode value).tree = .ok value

namespace Codec

variable {room : Nat}

/-- A text is read back whole. -/
theorem ReadsBack.readText {codec : Codec α} {value : α} (law : codec.ReadsBack 127 value) :
    codec.readText (codec.writeText value) = .ok value := by
  rw [Codec.readText, writeText, read_bytes law.fits, Document.decode, law.back]
  rfl

theorem text_readsBack (value : String) : text.ReadsBack room value :=
  ⟨trivial, fun _ => rfl⟩

theorem bool_readsBack (value : Bool) : bool.ReadsBack room value :=
  ⟨trivial, fun _ => rfl⟩

/-- A natural number below a bound is read back. -/
theorem below_natural {bound n : Nat} (small : n < bound) (expected : String) (source : Source) :
    Decoder.below bound expected source (Value.natural n).tree = .ok n := by
  have within : (0 : Int) ≤ n ∧ (n : Int) < bound := by omega
  rw [Value.natural, Value.tree, Decoder.below, if_pos within]
  rfl

theorem natural_fits {n : Nat} (small : n < 2 ^ 64) : (Value.natural n).Fits room := by
  constructor <;> omega

theorem word64_readsBack (value : UInt64) : word64.ReadsBack room value := by
  refine ⟨natural_fits value.toNat_lt, fun source => ?_⟩
  have read := below_natural value.toNat_lt "u64" source
  simp only [word64]
  rw [read]
  simp [Functor.map, Except.map]

theorem word32_readsBack (value : UInt32) : word32.ReadsBack room value := by
  refine ⟨natural_fits (Nat.lt_trans value.toNat_lt (by decide)), fun source => ?_⟩
  have read := below_natural value.toNat_lt "u32" source
  simp only [word32]
  rw [read]
  simp [Functor.map, Except.map]

theorem word16_readsBack (value : UInt16) : word16.ReadsBack room value := by
  refine ⟨natural_fits (Nat.lt_trans value.toNat_lt (by decide)), fun source => ?_⟩
  have read := below_natural value.toNat_lt "u16" source
  simp only [word16]
  rw [read]
  simp [Functor.map, Except.map]

/-- A value is read back where it may be missing, unless it is written as null. -/
theorem option_readsBack {item : Codec α} {value : Option α}
    (law : ∀ a, value = some a → item.ReadsBack room a)
    (solid : ∀ a, value = some a → (item.encode a).tree ≠ .null) :
    item.option.ReadsBack room value := by
  cases value with
  | none => exact ⟨trivial, fun _ => rfl⟩
  | some a =>
      refine ⟨(law a rfl).fits, fun source => ?_⟩
      have read := (law a rfl).back source
      have present := solid a rfl
      show Decoder.option item.decode source (item.encode a).tree = _
      rw [Decoder.option]
      · rw [read]
        rfl
      · exact present

/-- A list is read back item by item. -/
theorem list_readsBack {item : Codec α} {values : List α}
    (law : ∀ a ∈ values, item.ReadsBack room a) : item.list.ReadsBack (room + 1) values := by
  constructor
  · refine ⟨Nat.succ_ne_zero _, itemsFit_iff.2 fun value mem => ?_⟩
    obtain ⟨a, member, rfl⟩ := List.mem_map.1 mem
    exact (law a member).fits
  · intro source
    have items : Decoder.items (item.decode source) (itemTrees (values.map item.encode)) =
        .ok values := by
      induction values with
      | nil => rfl
      | cons a values ih =>
          rw [List.map_cons, itemTrees, Decoder.items, (law a List.mem_cons_self).back, ok_bind,
            ih fun a mem => law a (List.mem_cons_of_mem _ mem)]
          rfl
    show Decoder.list item.decode source (.list false _ .closed) = _
    rw [Decoder.list, items]
    cases source <;> rfl

/-- A map is read back entry by entry. -/
theorem map_readsBack {item : Codec α} {values : SortedMap String α}
    (law : ∀ entry ∈ values.entries, item.ReadsBack room entry.2) :
    item.map.ReadsBack (room + 1) values := by
  constructor
  · refine ⟨Nat.succ_ne_zero _, membersFit_iff.2 fun member mem => ?_⟩
    obtain ⟨entry, among, rfl⟩ := List.mem_map.1 mem
    exact (law entry among).fits
  · intro source
    have entries : ∀ entries : List (String × α), (∀ entry ∈ entries, item.ReadsBack room entry.2) →
        Decoder.entries (item.decode source) (memberTrees
          (entries.map fun entry => (entry.1, item.encode entry.2))) = .ok entries := by
      intro entries law
      induction entries with
      | nil => rfl
      | cons entry entries ih =>
          rw [List.map_cons, memberTrees, Decoder.entries, (law entry List.mem_cons_self).back,
            ok_bind, ih fun entry mem => law entry (List.mem_cons_of_mem _ mem)]
          rfl
    show SortedMap.ofList <$> Decoder.map item.decode source (.record false _ .closed) = _
    rw [Decoder.map, entries _ law]
    cases source <;> exact congrArg Except.ok (SortedMap.ofList_entries values)

/-- A named alternative is read back if its name stands for it. -/
theorem choice_readsBack {all : List α} {name : α → String} {value : α}
    (named : (all.map fun value => (name value, value)).lookup (name value) = some value) :
    (choice all name).ReadsBack room value := by
  refine ⟨trivial, fun source => ?_⟩
  simp only [choice, Value.tree, Decoder.choice, named]
  cases source <;> rfl

/-- A text of its own form is read back if it is parsed as what was written. -/
theorem parsed_readsBack {expected : String} {write : α → String}
    {parse : String → Except String α} {value : α} (parsed : parse (write value) = .ok value) :
    (Codec.parsed expected write parse).ReadsBack room value := by
  refine ⟨trivial, fun source => ?_⟩
  simp only [Codec.parsed, Value.tree, Decoder.text, pure_eq_ok, ok_bind, parsed]

end Codec

/-! ## Fields of structures -/

/-- A field has the name of a member and takes its value. -/
def Takes (field : String × Decoder Unit) (member : String × Value) : Prop :=
  field.1 = member.1 ∧ ∀ source, field.2 source member.2.tree = .ok ()

/-- A shape takes the members that it writes of a whole, and makes a value of them. -/
structure Shape.ReadsBack (shape : Shape σ α) (room : Nat) (whole : σ) (value : α) : Prop where
  fits : MembersFit room (shape.members whole)
  /-- The fields take the members in order. -/
  takes : List.Forall₂ Takes shape.fields (shape.members whole)
  build : ∀ source find, (∀ member ∈ shape.members whole, find member.1 = some member.2.tree) →
    shape.named source find = .ok value

namespace Shape

variable {room : Nat} {whole : σ}

theorem field_readsBack {name : String} {codec : Codec α} {get : σ → α} {absent short : Option α}
    (law : codec.ReadsBack room (get whole)) :
    (field name codec get absent short).ReadsBack room whole (get whole) where
  fits := ⟨law.fits, trivial⟩
  takes := .cons ⟨rfl, fun source => by dsimp only; rw [law.back]; rfl⟩ .nil
  build := by
    intro source find found
    have here : find name = some (codec.encode (get whole)).tree :=
      found (name, codec.encode (get whole)) List.mem_cons_self
    simp only [field, here]
    exact law.back source

theorem ReadsBack.map {shape : Shape σ α} {value : α} (law : shape.ReadsBack room whole value)
    (f : α → β) : (f <$> shape).ReadsBack room whole (f value) where
  fits := law.fits
  takes := law.takes
  build := by
    intro source find found
    show f <$> shape.named source find = _
    rw [law.build source find found]
    rfl

theorem ReadsBack.seq {first : Shape σ (α → β)} {second : Shape σ α} {f : α → β} {value : α}
    (firstLaw : first.ReadsBack room whole f) (secondLaw : second.ReadsBack room whole value) :
    (first <*> second).ReadsBack room whole (f value) where
  fits := membersFit_iff.2 fun member mem => by
    rcases List.mem_append.1 mem with mem | mem
    · exact membersFit_iff.1 firstLaw.fits member mem
    · exact membersFit_iff.1 secondLaw.fits member mem
  takes := List.rel_append firstLaw.takes secondLaw.takes
  build := by
    intro source find found
    have front := firstLaw.build source find fun member mem =>
      found member (List.mem_append_left _ mem)
    have back := secondLaw.build source find fun member mem =>
      found member (List.mem_append_right _ mem)
    show (first.named source find >>= fun f => second.named source find >>= fun value =>
      pure (f value)) = _
    rw [front, ok_bind, back]
    rfl

theorem ReadsBack.via {shape : Shape τ α} {get : σ → τ} {value : α}
    (law : shape.ReadsBack room (get whole) value) :
    (shape.via get).ReadsBack room whole value where
  fits := law.fits
  takes := law.takes
  build := law.build

end Shape

/-! ## Structures -/

/-- The first member with a name that occurs once is the member of that name. -/
theorem find_memberTrees {members : List (String × Value)}
    (distinct : (members.map Prod.fst).Nodup) {member : String × Value} (mem : member ∈ members) :
    Shape.find (memberTrees members) member.1 = some member.2.tree := by
  induction members with
  | nil => simp at mem
  | cons head members ih =>
      obtain ⟨name, value⟩ := head
      obtain ⟨fresh, tail⟩ := List.nodup_cons.1 distinct
      rw [memberTrees, Shape.find, List.lookup_cons]
      rcases List.mem_cons.1 mem with rfl | later
      · simp
      · have differ : (some member.1 == some name) = false := by
          rw [beq_eq_false_iff_ne]
          intro same
          exact fresh (List.mem_map.2 ⟨member, later, Option.some.inj same⟩)
        rw [differ]
        exact ih tail later

/-- The field with the name of a member takes its value. -/
theorem lookup_of_takes {fields : List (String × Decoder Unit)} {members : List (String × Value)}
    (takes : List.Forall₂ Takes fields members) (distinct : (members.map Prod.fst).Nodup)
    {member : String × Value} (mem : member ∈ members) :
    ∃ decode, fields.lookup member.1 = some decode ∧
      ∀ source, decode source member.2.tree = .ok () := by
  induction takes with
  | nil => simp at mem
  | @cons field other fields members first _ ih =>
      obtain ⟨name, decode⟩ := field
      obtain ⟨same, taken⟩ := first
      dsimp only at same
      subst same
      obtain ⟨fresh, tail⟩ := List.nodup_cons.1 distinct
      rw [SortedMap.lookup_cons]
      rcases List.mem_cons.1 mem with rfl | later
      · exact ⟨decode, if_pos rfl, taken⟩
      · have differ : member.1 ≠ other.1 := by
          intro same
          exact fresh (List.mem_map.2 ⟨member, later, same⟩)
        rw [if_neg differ]
        exact ih tail later

/-- The fields have the names of the members. -/
theorem names_of_takes {fields : List (String × Decoder Unit)} {members : List (String × Value)}
    (takes : List.Forall₂ Takes fields members) : fields.map Prod.fst = members.map Prod.fst := by
  induction takes with
  | nil => rfl
  | cons first _ ih => rw [List.map_cons, List.map_cons, first.1, ih]

/-- No field has a name that no member has. -/
theorem lookup_eq_none_of_takes {fields : List (String × Decoder Unit)}
    {members : List (String × Value)} (takes : List.Forall₂ Takes fields members) {name : String}
    (unknown : name ∉ members.map Prod.fst) : fields.lookup name = none := by
  induction takes with
  | nil => rfl
  | @cons field other fields members first _ ih =>
      obtain ⟨own, decode⟩ := field
      rw [List.map_cons, List.mem_cons, not_or] at unknown
      have differ : name ≠ own := by
        rintro rfl
        exact unknown.1 first.1
      rw [SortedMap.lookup_cons, if_neg differ]
      exact ih unknown.2

namespace Shape

/-- Members with names of their own are walked over if each is taken by its field or passed. -/
theorem walk_eq_ok {source : Source} {fields : List (String × Decoder Unit)}
    {other : Option String → Tree → Except Refusal Unit} {members : List (String × Value)}
    {seen : List String} (distinct : (members.map Prod.fst).Nodup)
    (unseen : ∀ member ∈ members, member.1 ∉ seen)
    (passes : ∀ member ∈ members,
      (∃ decode, fields.lookup member.1 = some decode ∧
        decode source member.2.tree = .ok ()) ∨
      (fields.lookup member.1 = none ∧ other (some member.1) member.2.tree = .ok ())) :
    walk source fields other seen (memberTrees members) = .ok () := by
  induction members generalizing seen with
  | nil => rfl
  | cons member members ih =>
      obtain ⟨name, value⟩ := member
      obtain ⟨fresh, tail⟩ := List.nodup_cons.1 distinct
      have rest := fun member mem => passes member (List.mem_cons_of_mem _ mem)
      have notSeen : seen.contains name = false := by
        simpa using unseen (name, value) List.mem_cons_self
      rw [memberTrees, walk]
      rcases passes (name, value) List.mem_cons_self with
        ⟨decode, known, taken⟩ | ⟨unknown, passed⟩
      · have later : ∀ member ∈ members, member.1 ∉ name :: seen := by
          intro member mem
          rw [List.mem_cons, not_or]
          constructor
          · intro same
            exact fresh (List.mem_map.2 ⟨member, mem, same⟩)
          · exact unseen member (List.mem_cons_of_mem _ mem)
        simp only [known, notSeen, taken, ok_bind]
        exact ih tail later rest
      · simp only [unknown, passed, ok_bind]
        exact ih tail (fun member mem => unseen member (List.mem_cons_of_mem _ mem)) rest

/-- A structure is read back if its shape is and no name occurs twice. -/
theorem codec_readsBack {shape : Shape α α} {room : Nat} {value : α} {name : String}
    (law : shape.ReadsBack room value value) (names : (shape.fields.map Prod.fst).Nodup) :
    (shape.codec name).ReadsBack (room + 1) value := by
  have distinct := names
  rw [names_of_takes law.takes] at distinct
  refine ⟨⟨Nat.succ_ne_zero _, law.fits⟩, fun source => ?_⟩
  have walked : walk source shape.fields (fun _ tree => sound tree.skip) []
      (memberTrees (shape.members value)) = .ok () := by
    refine walk_eq_ok distinct (fun _ _ => List.not_mem_nil) fun member mem => .inl ?_
    obtain ⟨decode, known, taken⟩ := lookup_of_takes law.takes distinct mem
    exact ⟨decode, known, taken source⟩
  have built := law.build source (find (memberTrees (shape.members value)))
    fun member mem => find_memberTrees distinct mem
  show shape.decode name source (.record false _ .closed) = _
  rw [decode, walked]
  cases source <;> exact built

end Shape

/-! ## Structures side by side -/

mutual

/-- What was written shows no fault when it is kept for later. -/
theorem check_tree (value : Value) : value.tree.check = .ok () := by
  match value with
  | .null => rfl
  | .bool _ => rfl
  | .number _ => rfl
  | .text _ => rfl
  | .list items =>
      rw [Value.tree, Tree.check, checkItems_itemTrees items]
      rfl
  | .record members =>
      rw [Value.tree, Tree.check, checkMembers_memberTrees members]
      rfl

theorem checkItems_itemTrees (items : List Value) : checkItems (itemTrees items) = .ok () := by
  match items with
  | [] => rfl
  | item :: items =>
      rw [itemTrees, checkItems, check_tree item]
      exact checkItems_itemTrees items

theorem checkMembers_memberTrees (members : List (String × Value)) :
    checkMembers (memberTrees members) = .ok () := by
  match members with
  | [] => rfl
  | (name, value) :: members =>
      rw [memberTrees, checkMembers, check_tree value]
      exact checkMembers_memberTrees members

end

namespace Shape

/-- A structure beside another one is read back if both are and no name occurs twice. -/
theorem joined_readsBack {own : Shape α (β → α)} {part : Shape α β} {room : Nat} {value : α}
    {make : β → α} {inner : β} {name : String} (ownLaw : own.ReadsBack room value make)
    (partLaw : part.ReadsBack room value inner) (whole : make inner = value)
    (names : ((own.fields ++ part.fields).map Prod.fst).Nodup) :
    (joined name own part).ReadsBack (room + 1) value := by
  have distinct : ((own.members value ++ part.members value).map Prod.fst).Nodup := by
    rwa [← names_of_takes (List.rel_append ownLaw.takes partLaw.takes)]
  have fits : MembersFit room (own.members value ++ part.members value) :=
    membersFit_iff.2 fun member mem => by
      rcases List.mem_append.1 mem with mem | mem
      · exact membersFit_iff.1 ownLaw.fits member mem
      · exact membersFit_iff.1 partLaw.fits member mem
  refine ⟨⟨Nat.succ_ne_zero _, fits⟩, fun source => ?_⟩
  obtain ⟨ownNames, partNames, apart⟩ := List.nodup_append.1 (List.map_append ▸ distinct)
  have known : ∀ member ∈ own.members value, ∃ decode, own.fields.lookup member.1 = some decode ∧
      ∀ source, decode source member.2.tree = .ok () :=
    fun member mem => lookup_of_takes ownLaw.takes ownNames mem
  have unknown : ∀ member ∈ part.members value, own.fields.lookup member.1 = none := by
    intro member mem
    refine lookup_eq_none_of_takes ownLaw.takes fun among => ?_
    exact apart _ among _ (List.mem_map.2 ⟨member, mem, rfl⟩) rfl
  have walked : walk source own.fields (fun _ tree => sound tree.check) []
      (memberTrees (own.members value ++ part.members value)) = .ok () := by
    refine walk_eq_ok distinct (fun _ _ => List.not_mem_nil) fun member mem => ?_
    rcases List.mem_append.1 mem with mem | mem
    · obtain ⟨decode, found, taken⟩ := known member mem
      exact .inl ⟨decode, found, taken source⟩
    · refine .inr ⟨unknown member mem, ?_⟩
      rw [check_tree]
      rfl
  have built := ownLaw.build source
    (find (memberTrees (own.members value ++ part.members value))) fun member mem =>
      find_memberTrees distinct (List.mem_append_left _ mem)
  -- Only the members of the part are put aside.
  have others : (memberTrees (own.members value ++ part.members value)).filter
      (fun member => (own.fields.lookup (member.1.getD "")).isNone) =
        memberTrees (part.members value) := by
    simp only [memberTrees_eq_map, List.map_append, List.filter_append]
    rw [List.filter_eq_nil_iff.2, List.filter_eq_self.2, List.nil_append]
    · intro tree mem
      obtain ⟨member, among, rfl⟩ := List.mem_map.1 mem
      simp [unknown member among]
    · intro tree mem
      obtain ⟨member, among, rfl⟩ := List.mem_map.1 mem
      obtain ⟨decode, found, _⟩ := known member among
      simp [found]
  have walkedPart : walk .buffered part.fields (fun _ _ => pure ()) []
      (memberTrees (part.members value)) = .ok () := by
    refine walk_eq_ok partNames (fun _ _ => List.not_mem_nil) fun member mem => .inl ?_
    obtain ⟨decode, found, taken⟩ := lookup_of_takes partLaw.takes partNames mem
    exact ⟨decode, found, taken .buffered⟩
  have builtPart := partLaw.build .buffered (find (memberTrees (part.members value)))
    fun member mem => find_memberTrees partNames mem
  show decodeJoined name own part source (.record false _ .closed) = _
  rw [decodeJoined, walked, built]
  simp only [ok_bind, others, walkedPart, builtPart, whole]
  cases source <;> rfl

end Shape

end MediaHarvest.Json
