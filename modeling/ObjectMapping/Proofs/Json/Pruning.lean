import ObjectMapping.Json.Prune
import ObjectMapping.Proofs.Json.Ordered
import ObjectMapping.Proofs.Json.RoundTrip
import ObjectMapping.Proofs.Json.Visits

/-! Writing with and without nulls. Both ways of writing a record fail alike, and what is written
without nulls is what is written with them when the nulls have been removed, as long as no field
without a value stands in the place of the name of a type. -/
namespace ObjectMapping.Json

variable {members others placed : List (String × Json)} {key : String}

/-- What a key leads to is pruned, unless it is null. -/
private theorem lookup_pruneMembers (ordered : Ordered members) :
    (pruneMembers members).lookup key = ((members.lookup key).filter (!·.isNull)).map prune := by
  induction members with
  | nil => rfl
  | cons first rest ih =>
    obtain ⟨k, j⟩ := first
    obtain ⟨below, ordered⟩ := List.pairwise_cons.mp ordered
    have later := ih ordered
    rw [pruneMembers]
    by_cases here : key = k
    · subst here
      rw [List.lookup_cons_self]
      cases nothing : j.isNull with
      | true =>
        rw [if_pos rfl, later, lookup_before below]
        simp [nothing]
      | false =>
        rw [if_neg Bool.false_ne_true, List.lookup_cons_self]
        simp [nothing]
    · rw [lookup_cons_ne here]
      split
      · exact later
      · rw [lookup_cons_ne here, later]

private theorem mem_pruneMembers {entry : String × Json} (member : entry ∈ pruneMembers members) :
    ∃ j, (entry.1, j) ∈ members := by
  induction members with
  | nil => cases member
  | cons first rest ih =>
    obtain ⟨k, j⟩ := first
    rw [pruneMembers] at member
    have later : entry ∈ pruneMembers rest → ∃ i, (entry.1, i) ∈ (k, j) :: rest := fun member => by
      obtain ⟨i, within⟩ := ih member
      exact ⟨i, List.mem_cons_of_mem _ within⟩
    split at member
    · exact later member
    · rcases List.mem_cons.mp member with rfl | member
      · exact ⟨j, List.mem_cons_self⟩
      · exact later member

private theorem Ordered.pruneMembers (ordered : Ordered members) : Ordered (pruneMembers members) := by
  induction members with
  | nil => exact List.Pairwise.nil
  | cons first rest ih =>
    obtain ⟨k, j⟩ := first
    obtain ⟨below, ordered⟩ := List.pairwise_cons.mp ordered
    rw [Json.pruneMembers]
    split
    · exact ih ordered
    · refine List.pairwise_cons.mpr ⟨fun entry member => ?_, ih ordered⟩
      obtain ⟨i, within⟩ := mem_pruneMembers member
      exact below (entry.1, i) within

/-- Two results fail alike. -/
private def Alike (x y : Except Error α) : Prop :=
  ∀ e, x = .error e ↔ y = .error e

private theorem Alike.ok (a b : α) : Alike (.ok a) (.ok b) := by
  intro e
  constructor <;> intro failed <;> cases failed

private theorem Alike.bind {x y : Except Error α} {f g : α → Except Error β} (first : Alike x y)
    (next : ∀ a b, x = .ok a → y = .ok b → Alike (f a) (g b)) : Alike (x >>= f) (y >>= g) := by
  intro e
  cases left : x with
  | error cause =>
    rw [(first cause).mp left]
    exact ⟨fun same => congrArg Except.error (Except.error.inj same), fun same =>
      congrArg Except.error (Except.error.inj same)⟩
  | ok a =>
    cases right : y with
    | error cause => cases left.symm.trans ((first cause).mpr right)
    | ok b => exact next a b left right e

private theorem Alike.inField {x y : Except Error α} (alike : Alike x y) :
    Alike (inField name x) (ObjectMapping.inField name y) := by
  intro e
  rw [inField_eq_error, inField_eq_error]
  exact exists_congr fun cause => and_congr_left' (alike cause)

variable {reg : Registry} {options : JsonOptions} {context : Context} {o r : Record} {f : Field}
variable {v : Value} {fields : List Field} {j short : Json}

/-- The fields are written or not, whatever stands there before, with nulls and without. -/
private theorem alike_fields
    (each : ∀ f ∈ fields, ∀ v, f.get r = .ok v →
      Alike (ofValue reg (options.withNulls true) (.ofField f) v)
        (ofValue reg (options.withNulls false) (.ofField f) v)) :
    Alike (ofFields reg (options.withNulls true) r placed fields)
      (ofFields reg (options.withNulls false) r others fields) := by
  induction fields generalizing placed others with
  | nil =>
    rw [ofFields, ofFields]
    exact Alike.ok placed others
  | cons f rest ih =>
    obtain ⟨here, later⟩ := List.forall_mem_cons.mp each
    rw [ofFields_cons, ofFields_cons]
    refine Alike.bind (fun e => Iff.rfl) fun v w read again => ?_
    obtain rfl := Except.ok.inj (read.symm.trans again)
    cases nothing : v.isNull with
    | true =>
      -- With nulls there is one more member, and the tree of nothing is always written.
      obtain rfl := Value.eq_null_of_isNull nothing
      have written : ofValue reg (options.withNulls true) (.ofField f) .null = .ok .null := by
        rw [ofValue]
      have next : ∀ e, ofFields reg (options.withNulls true) r (insert f.name .null placed) rest =
        .error e ↔ ofFields reg (options.withNulls false) r others rest = .error e := ih later
      rw [written]
      exact next
    | false => exact Alike.bind (here v read).inField fun _ _ _ _ => ih later

private theorem alike_items {items : List Value}
    (each : ∀ v ∈ items, Alike (ofValue reg (options.withNulls true) context v)
      (ofValue reg (options.withNulls false) context v)) :
    Alike (ofItems reg (options.withNulls true) context items)
      (ofItems reg (options.withNulls false) context items) := by
  induction items with
  | nil =>
    rw [ofItems, ofItems]
    exact Alike.ok [] []
  | cons v rest ih =>
    obtain ⟨here, later⟩ := List.forall_mem_cons.mp each
    rw [ofItems, ofItems]
    exact here.bind fun _ _ _ _ => (ih later).bind fun _ _ _ _ => Alike.ok _ _

private theorem alike_record {tagged : Bool}
    (each : ∀ f v, Reads reg r f v → Alike (ofValue reg (options.withNulls true) (.ofField f) v)
      (ofValue reg (options.withNulls false) (.ofField f) v)) :
    Alike (ofRecord reg (options.withNulls true) tagged r)
      (ofRecord reg (options.withNulls false) tagged r) := by
  rw [ofRecord, ofRecord]
  refine Alike.bind (fun e => Iff.rfl) fun d d' described again => ?_
  obtain rfl := Except.ok.inj (described.symm.trans again)
  have found := Registry.descriptorFor_eq.mp described
  refine Alike.bind (alike_fields fun f member v read => each f v ⟨d, found, member, read⟩) ?_
  exact fun _ _ _ _ => Alike.ok _ _

/-- A value is written or not, with nulls and without. -/
private theorem alike_value (context : Context) (v : Value) :
    Alike (ofValue reg (options.withNulls true) context v)
      (ofValue reg (options.withNulls false) context v) := by
  induction context, v using writing_induction reg with
  | null | scalar =>
    rw [ofValue, ofValue]
    exact fun e => Iff.rfl
  | object context r ih =>
    rw [ofValue, ofValue]
    exact alike_record ih
  | array context items ih =>
    rw [ofValue, ofValue]
    refine Alike.bind (fun e => Iff.rfl) fun place place' described again => ?_
    obtain rfl := Except.ok.inj (described.symm.trans again)
    exact (alike_items (ih place described)).bind fun _ _ _ _ => Alike.ok _ _

/-- Only nothing is written as `null`. -/
private theorem isNull_of_ofValue (something : v ≠ .null) (ok : ofValue reg options context v = .ok j) :
    j.isNull = false := by
  cases v with
  | null => exact absurd rfl something
  | scalar s =>
    rw [ofValue] at ok
    exact isNull_ofScalar ok
  | object r =>
    rw [ofValue] at ok
    obtain ⟨d, members, -, rfl, -⟩ := ofRecord_eq_ok ok
    rfl
  | array items =>
    obtain ⟨place, trees, -, -, rfl⟩ := ofValue_array_eq_ok ok
    rfl

/-- What is written without nulls is what is left of what is written with them. -/
private def Pruned (reg : Registry) (options : JsonOptions) (context : Context) (v : Value) : Prop :=
  ∀ j short, ofValue reg (options.withNulls true) context v = .ok j →
    ofValue reg (options.withNulls false) context v = .ok short → short = j.prune

private theorem pruned_null (context : Context) : Pruned reg options context .null := by
  intro j short full brief
  rw [ofValue] at full brief
  obtain rfl := Except.ok.inj full
  exact (Except.ok.inj brief).symm

private theorem pruned_scalar (context : Context) (s : Scalar) :
    Pruned reg options context (.scalar s) := by
  intro j short full brief
  rw [ofValue] at full brief
  obtain rfl := Except.ok.inj (full.symm.trans brief)
  rcases leaf_of_ofScalar full with ⟨_, rfl⟩ | ⟨_, rfl⟩ | ⟨_, rfl⟩ | ⟨_, rfl⟩ <;> rfl

/-- A list is pruned element by element. -/
private theorem pruned_items {items : List Value} {trees briefs : List Json}
    (full : ofItems reg (options.withNulls true) context items = .ok trees)
    (brief : ofItems reg (options.withNulls false) context items = .ok briefs) :
    briefs = pruneItems trees ↔ ∀ v ∈ items, Pruned reg options context v := by
  induction items generalizing trees briefs with
  | nil =>
    rw [ofItems] at full brief
    obtain rfl := Except.ok.inj full
    obtain rfl := Except.ok.inj brief
    exact ⟨fun _ => List.forall_mem_nil _, fun _ => rfl⟩
  | cons v rest ih =>
    rw [ofItems] at full brief
    obtain ⟨j, here, full⟩ := bind_eq_ok.mp full
    obtain ⟨trees, later, full⟩ := bind_eq_ok.mp full
    obtain ⟨short, also, brief⟩ := bind_eq_ok.mp brief
    obtain ⟨briefs, others, brief⟩ := bind_eq_ok.mp brief
    obtain rfl := Except.ok.inj full
    obtain rfl := Except.ok.inj brief
    have first : short = j.prune ↔ Pruned reg options context v := by
      refine ⟨fun same a b written again => ?_, fun pruned => pruned j short here also⟩
      obtain rfl := Except.ok.inj (here.symm.trans written)
      obtain rfl := Except.ok.inj (also.symm.trans again)
      exact same
    rw [pruneItems, List.cons.injEq, List.forall_mem_cons, first, ih later others]

/-- Of the fields of a record, those without a value are missing among the members. -/
private theorem pruned_members {placed : List (String × Json)} (distinct : (fields.map (·.name)).Nodup)
    (ordered : Ordered placed) (stays : pruneMembers placed = placed)
    (full : ofFields reg (options.withNulls true) r placed fields = .ok members)
    (brief : ofFields reg (options.withNulls false) r placed fields = .ok others) :
    others = pruneMembers members ↔
      (∀ f ∈ fields, ∀ v, f.get r = .ok v → Pruned reg options (.ofField f) v) ∧
        ∀ f ∈ fields, f.get r = .ok .null → placed.lookup f.name = none := by
  obtain ⟨whole, still⟩ := ofFields_written distinct full
  obtain ⟨part, same⟩ := ofFields_written distinct brief
  have everywhere : ∀ key, (pruneMembers members).lookup key =
      ((members.lookup key).filter (!·.isNull)).map prune :=
    fun key => lookup_pruneMembers (ordered.ofFields full)
  have nothing : ∀ f ∈ fields, f.get r = .ok .null → (pruneMembers members).lookup f.name = none := by
    intro f member read
    obtain ⟨j, tree, here⟩ := (whole f member).found read (.inl rfl)
    rw [ofValue] at tree
    obtain rfl := Except.ok.inj tree
    rw [everywhere, here]
    rfl
  have something : ∀ f ∈ fields, ∀ v, f.get r = .ok v → v ≠ .null →
      ∃ j, ofValue reg (options.withNulls true) (.ofField f) v = .ok j ∧
        (pruneMembers members).lookup f.name = some j.prune := by
    intro f member v read value
    obtain ⟨j, tree, here⟩ := (whole f member).found read (.inl rfl)
    refine ⟨j, tree, ?_⟩
    rw [everywhere, here]
    simp [isNull_of_ofValue value tree]
  constructor
  · rintro rfl
    refine ⟨fun f member v read => ?_, fun f member read => ?_⟩
    · by_cases null : v = .null
      · exact null ▸ pruned_null _
      intro j short written again
      obtain ⟨_, tree, here⟩ := something f member v read null
      obtain ⟨_, brief, there⟩ := (part f member).found read (.inr null)
      obtain rfl := Except.ok.inj (written.symm.trans tree)
      obtain rfl := Except.ok.inj (again.symm.trans brief)
      exact Option.some.inj (there.symm.trans here)
    · exact ((part f member).passed read rfl).symm.trans (nothing f member read)
  · rintro ⟨each, absent⟩
    refine (ordered.ofFields brief).ext (ordered.ofFields full).pruneMembers fun key => ?_
    by_cases named : ∃ f ∈ fields, f.name = key
    · obtain ⟨f, member, rfl⟩ := named
      obtain ⟨v, read⟩ : ∃ v, f.get r = .ok v := by
        cases whole f member with
        | member read _ _ _ => exact ⟨_, read⟩
        | omitted read _ _ => exact ⟨_, read⟩
      by_cases null : v = .null
      · subst null
        rw [(part f member).passed read rfl, absent f member read, nothing f member read]
      · obtain ⟨j, tree, here⟩ := something f member v read null
        obtain ⟨short, brief, there⟩ := (part f member).found read (.inr null)
        rw [there, here, each f member v read j short tree brief]
    · have other : ∀ f ∈ fields, f.name ≠ key := fun f member equal => named ⟨f, member, equal⟩
      rw [everywhere, same key other, still key other, ← lookup_pruneMembers ordered, stays]

/-- A record is pruned if its fields are and no field without a value stands where its tag is. -/
private theorem pruned_record {d : Descriptor} {tagged : Bool} (found : reg.byType? r.type = some d)
    (distinct : (d.fields.map (·.name)).Nodup)
    (full : ofRecord reg (options.withNulls true) tagged r = .ok j)
    (brief : ofRecord reg (options.withNulls false) tagged r = .ok short) :
    short = j.prune ↔ (∀ f v, Reads reg r f v → Pruned reg options (.ofField f) v) ∧
      (tagged → ∀ f, Reads reg r f .null → f.name ≠ options.typeKey) := by
  obtain ⟨e, members, known, rfl, written⟩ := ofRecord_eq_ok full
  obtain rfl := Option.some.inj (found.symm.trans known)
  obtain ⟨e, others, known, rfl, again⟩ := ofRecord_eq_ok brief
  obtain rfl := Option.some.inj (found.symm.trans known)
  have reads : ∀ f v, Reads reg r f v ↔ f ∈ d.fields ∧ f.get r = .ok v := by
    refine fun f v => ⟨?_, fun ⟨member, read⟩ => ⟨d, found, member, read⟩⟩
    rintro ⟨e, known, member, read⟩
    obtain rfl := Option.some.inj (found.symm.trans known)
    exact ⟨member, read⟩
  have tag : ∀ name, (if tagged then [(options.typeKey, Json.string d.name)] else []).lookup name =
      none ↔ (tagged → name ≠ options.typeKey) := by
    intro name
    cases tagged with
    | false => simp
    | true =>
      by_cases same : name = options.typeKey
      · simp [same]
      · simp [lookup_cons_ne same, same]
  have here := pruned_members distinct (by cases tagged <;> simp [Ordered])
    (by cases tagged <;> rfl) written again
  rw [prune, Json.object.injEq, here]
  constructor
  · rintro ⟨each, absent⟩
    refine ⟨fun f v read => ?_, fun variant f read => ?_⟩
    · obtain ⟨member, read⟩ := (reads f v).mp read
      exact each f member v read
    · obtain ⟨member, read⟩ := (reads f .null).mp read
      exact (tag f.name).mp (absent f member read) variant
  · rintro ⟨each, apart⟩
    refine ⟨fun f member v read => each f v ((reads f v).mpr ⟨member, read⟩), ?_⟩
    intro f member read
    exact (tag f.name).mpr fun variant => apart variant f ((reads f .null).mpr ⟨member, read⟩)

/-- Without nulls, whatever writing a record comes to is pruned as long as all tags stand. -/
private theorem pruned_of_keepsTags (described : ∀ d ∈ reg.objects, (d.fields.map (·.name)).Nodup)
    (keeps : KeepsTags reg options o) (visits : Visits reg o context v) :
    Pruned reg options context v := by
  induction context, v using writing_induction reg with
  | null context => exact pruned_null context
  | scalar context s => exact pruned_scalar context s
  | object context r ih =>
    intro j short full brief
    rw [ofValue] at full brief
    obtain ⟨d, -, found, -⟩ := ofRecord_eq_ok full
    have distinct := described d (Registry.byType_mem found).1
    exact (pruned_record found distinct full brief).mpr
      ⟨fun f w reads => ih f w reads (.nested visits reads), fun variant f reads =>
        keeps context r f visits (of_decide_eq_true variant) reads⟩
  | array context items ih =>
    intro j short full brief
    obtain ⟨place, trees, listed, whole, rfl⟩ := ofValue_array_eq_ok full
    obtain ⟨_, briefs, again, part, rfl⟩ := ofValue_array_eq_ok brief
    obtain rfl := Except.ok.inj (listed.symm.trans again)
    exact congrArg array ((pruned_items whole part).mpr fun w member =>
      ih place listed w member (.element visits listed member))

/-- A pruned record holds pruned values. -/
private theorem pruned_inside (described : ∀ d ∈ reg.objects, (d.fields.map (·.name)).Nodup)
    (pruned : Pruned reg options context (.object r))
    (full : ofValue reg (options.withNulls true) context (.object r) = .ok j)
    (brief : ofValue reg (options.withNulls false) context (.object r) = .ok short) :
    (∀ f v, Reads reg r f v → Pruned reg options (.ofField f) v) ∧
      (context.type = .variant → ∀ f, Reads reg r f .null → f.name ≠ options.typeKey) := by
  obtain rfl := pruned j short full brief
  rw [ofValue] at full brief
  obtain ⟨d, -, found, -⟩ := ofRecord_eq_ok full
  have distinct := described d (Registry.byType_mem found).1
  obtain ⟨each, apart⟩ := (pruned_record found distinct full brief).mp rfl
  exact ⟨each, fun variant => apart (decide_eq_true variant)⟩

/-- If a record is pruned, so is whatever writing it comes to. -/
private theorem pruned_of_visits (described : ∀ d ∈ reg.objects, (d.fields.map (·.name)).Nodup)
    (full : encode reg (options.withNulls true) o = .ok j)
    (brief : encode reg (options.withNulls false) o = .ok j.prune)
    (visits : Visits reg o context v) : Pruned reg options context v := by
  induction visits with
  | field reads =>
    obtain ⟨d, -, found, -⟩ := ofRecord_eq_ok full
    have distinct := described d (Registry.byType_mem found).1
    exact ((pruned_record found distinct full brief).mp rfl).1 _ _ reads
  | nested above reads ih =>
    obtain ⟨tree, whole⟩ := ofValue_of_visits full above
    obtain ⟨short, part⟩ := ofValue_of_visits brief above
    exact (pruned_inside described ih whole part).1 _ _ reads
  | element above listed member ih =>
    obtain ⟨tree, whole⟩ := ofValue_of_visits full above
    obtain ⟨short, part⟩ := ofValue_of_visits brief above
    have pruned := ih tree short whole part
    obtain ⟨place, trees, again, whole, rfl⟩ := ofValue_array_eq_ok whole
    obtain rfl := Except.ok.inj (listed.symm.trans again)
    obtain ⟨place, briefs, again, part, rfl⟩ := ofValue_array_eq_ok part
    obtain rfl := Except.ok.inj (listed.symm.trans again)
    exact (pruned_items whole part).mp (Json.array.inj pruned) _ member

/-- Writing with nulls and without them fails alike. What is written without them is what is
written with them, without its null members, exactly if no polymorphic object that the record leads
to has a field without a value in the place of the name of its type: with nulls the name is lost to
that field, and without them it stays. -/
theorem encode_prune_iff {c : Catalogue} (built : ∀ d ∈ reg.objects, d.Built c)
    (options : JsonOptions) (o : Record) :
    (∀ e, encode reg (options.withNulls true) o = .error e ↔
      encode reg (options.withNulls false) o = .error e) ∧
    ∀ j, encode reg (options.withNulls true) o = .ok j →
      (encode reg (options.withNulls false) o = .ok j.prune ↔ KeepsTags reg options o) := by
  have described : ∀ d ∈ reg.objects, (d.fields.map (·.name)).Nodup :=
    fun d member => (built d member).sound.distinct
  have alike : Alike (encode reg (options.withNulls true) o)
      (encode reg (options.withNulls false) o) := alike_record fun f v _ => alike_value _ v
  refine ⟨alike, fun j full => ⟨fun brief context r f visits variant reads => ?_, fun keeps => ?_⟩⟩
  · obtain ⟨tree, whole⟩ := ofValue_of_visits full visits
    obtain ⟨short, part⟩ := ofValue_of_visits brief visits
    have pruned := pruned_of_visits described full brief visits
    exact (pruned_inside described pruned whole part).2 variant f reads
  · cases brief : encode reg (options.withNulls false) o with
    | error e => cases full.symm.trans ((alike e).mpr brief)
    | ok short =>
      obtain ⟨d, -, found, -⟩ := ofRecord_eq_ok full
      have distinct := described d (Registry.byType_mem found).1
      exact congrArg Except.ok ((pruned_record found distinct full brief).mpr
        ⟨fun f v reads => pruned_of_keepsTags described keeps (.field reads), nofun⟩)

open Fish in
/-- The pike is written as its tree, and without nulls as the tree without the prey of its prey. -/
theorem encode_prune_pike :
    encode (registry legibleFins) (JsonOptions.default.withNulls false) pike = .ok pikeTree.prune ∧
      pikeTree.prune = .object [("fins", .string "A|B"),
        ("prey", .object [("@type", .string "Fish"), ("fins", .string "A")])] := by
  have built := built_descriptor (rfl : (draft legibleFins).build = _)
  have full : encode (registry legibleFins) (JsonOptions.default.withNulls true) pike =
      .ok pikeTree := by cbv
  refine ⟨((encode_prune_iff built .default pike).2 pikeTree full).mpr ?_, rfl⟩
  intro context r f _ _ reads
  obtain ⟨d, found, member, -⟩ := reads
  exact name_ne_typeKey d (Registry.byType_mem found).1 f member

open Fish in
/-- If the name of the type goes under the name of a field without a value, the two trees of the
pike tell the type of the fish inside differently: with nulls it is missing there. -/
theorem encode_prune_clash :
    (∀ d ∈ (registry legibleFins).objects, d.Built catalogue) ∧
      Registry.build [descriptor legibleFins] [] = .ok (registry legibleFins) ∧
      pike.Instance catalogue ∧
      ∃ full short, encode (registry legibleFins) ⟨"prey", true, false⟩ pike = .ok full ∧
        encode (registry legibleFins) ⟨"prey", false, false⟩ pike = .ok short ∧
        full = .object [("fins", .string "A|B"),
          ("prey", .object [("fins", .string "A"), ("prey", .null)])] ∧
        short = .object [("fins", .string "A|B"),
          ("prey", .object [("fins", .string "A"), ("prey", .string "Fish")])] ∧
        short ≠ full.prune := by
  refine ⟨built_descriptor rfl, rfl, instance_fish (.occupied (instance_fish .vacant)), _, _,
    ?_, ?_, rfl, rfl, ?_⟩
  · cbv
  · cbv
  · simp [prune, pruneMembers, isNull]

end ObjectMapping.Json
