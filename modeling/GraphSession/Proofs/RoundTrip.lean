import GraphSession.Proofs.Parts
import GraphSession.Proofs.Scanning

/-!
  Values that are written and read again.

  What is written of a value is scanned as the tokens of a document, `Value.document`, so it is read
  as that document unless it nests too deep.  The value that is read of the document is an equal one
  exactly if no part is misread; of a list this depends on its items, because a list of nothing but
  bytes is read as bytes.  A document that was read from a text has no part of the kind, so what was
  read from a text is always read back.

  Which double a text of digits stands for is left open: that the text of a double is parsed as the
  same double is a condition on each double, `ReadsBack`.
-/

namespace GraphSession.Value

/-! ## What is written of a value -/

/-- The text of a double is parsed as the same double. -/
def ReadsBack (x : Float) : Prop := (Decimal.json? x).bind Json.parse? = some (.float x)

/-- An integer that fits in a byte. -/
def IsByte (v : Value) : Prop := ∃ i, v = integer i ∧ 0 ≤ i.toInt ∧ i.toInt ≤ 255

/-- What is written of the value is read as something else, whatever becomes of what is in it: it is
    a date or a time, a double that is no finite number, or a list of nothing but bytes. -/
def Misread : Value → Prop
  | date _ | localTime _ | dateTime _ | localDateTime _ => True
  | float x => x.isFinite = false
  | list items => ∀ item ∈ items, item.IsByte
  | _ => False

/-- The names of its maps ascend, and its finite doubles are read back, at every depth. -/
structure Regular (v : Value) : Prop where
  ascends : ∀ es, map es ∈ v.parts → Fields.Ascends es
  reads : ∀ x, float x ∈ v.parts → x.isFinite = true → ReadsBack x

theorem Regular.child {v u : Value} (h : v.Regular) (child : u ∈ v.children) : u.Regular where
  ascends es mem := h.ascends es (mem_parts.mpr (.inr ⟨u, child, mem⟩))
  reads x mem := h.reads x (mem_parts.mpr (.inr ⟨u, child, mem⟩))

mutual

/-- The document that is written for a value. -/
def document : Value → GraphSession.Json
  | null => .null
  | boolean b => .boolean b
  | integer i => .integer i.toInt
  | float x => ((Decimal.json? x).bind fun text => Json.number? text.toList).getD .null
  | string s => .string s
  | bytes bs => .list (bs.map fun b => .integer b.toNat)
  | list items => .list (itemsDocument items)
  | map entries => .map (entriesDocument entries)
  | date d => .string d.text
  | localTime t => .string t.text
  | dateTime dt => .string dt.isoText
  | localDateTime dt => .string (dt.text "T")

def itemsDocument : List Value → List GraphSession.Json
  | [] => []
  | v :: vs => document v :: itemsDocument vs

def entriesDocument : List (String × Value) → List (String × GraphSession.Json)
  | [] => []
  | (name, v) :: rest => (name, document v) :: entriesDocument rest

end

theorem itemsDocument_eq (vs : List Value) : itemsDocument vs = vs.map document := by
  induction vs with
  | nil => rfl
  | cons v vs ih => rw [itemsDocument, ih, List.map_cons]

theorem entriesDocument_eq (es : List (String × Value)) :
    entriesDocument es = es.map fun e => (e.1, e.2.document) := by
  induction es with
  | nil => rfl
  | cons e es ih => rw [entriesDocument, ih, List.map_cons]

theorem itemsJson_eq (vs : List Value) : itemsJson vs = vs.map jsonChars := by
  induction vs with
  | nil => rfl
  | cons v vs ih => rw [itemsJson, ih, List.map_cons]

theorem entriesJson_eq (es : List (String × Value)) :
    entriesJson es = es.map fun e => Text.jsonChars e.1.toList ++ ':' :: e.2.jsonChars := by
  induction es with
  | nil => rfl
  | cons e es ih => rw [entriesJson, ih, List.map_cons]

theorem document_infinite {x : Float} (infinite : x.isFinite = false) :
    Decimal.json? x = none ∧ (float x).document = .null := by
  have none : Decimal.json? x = none := by
    rw [Decimal.json?, Double.ofFloat?_eq_none infinite]
    rfl
  rw [document, none]
  exact ⟨rfl, rfl⟩

/-- A double that is read back is written as the number that its document is. -/
theorem ReadsBack.number {x : Float} (h : ReadsBack x) : ∃ text, Decimal.json? x = some text ∧
    Json.number? text.toList = some (.float x) ∧ (float x).document = .float x := by
  obtain ⟨text, written, parsed⟩ := Option.bind_eq_some_iff.mp h
  rw [← String.ofList_toList (s := text), Json.parse?_isNumeral (Json.isNumeral_json? written)]
    at parsed
  refine ⟨text, written, parsed, ?_⟩
  rw [document, written, Option.bind_some, parsed, Option.getD_some]

/-- What is written of a value is scanned as the tokens of its document. -/
theorem scans_document {v : Value} (h : v.Regular) : Json.Scans v.jsonChars v.document.tokens := by
  induction v using Value.induction with
  | step v ih =>
  cases v with
  | null => exact Json.scans_null
  | boolean b => exact Json.scans_boolean b
  | integer i =>
    exact Json.scans_number (Json.isNumeral_int i.toInt)
      (Json.number?_int i.le_toInt (lt_trans i.toInt_lt (by decide)))
  | float x =>
    cases finite : x.isFinite with
    | true =>
      obtain ⟨text, written, number, same⟩ := (h.reads x (self_mem_parts _) finite).number
      rw [jsonChars, written, Option.getD_some, same]
      exact Json.scans_number (Json.isNumeral_json? written) number
    | false =>
      obtain ⟨none, document⟩ := document_infinite finite
      rw [jsonChars, none, document]
      exact Json.scans_null
  | string s => exact Json.scans_string s
  | bytes bs =>
    rw [jsonChars, document, Json.tokens_list, List.map_map]
    exact Json.scans_list fun b _ => Json.scans_number (Json.isMagnitude_nat b.toNat).isNumeral
      (Json.number?_nat (lt_trans b.toNat_lt (by decide)))
  | list items =>
    rw [jsonChars, document, itemsJson_eq, itemsDocument_eq, Json.tokens_list, List.map_map]
    exact Json.scans_list fun item mem => ih item mem (h.child mem)
  | map entries =>
    rw [jsonChars, document, entriesJson_eq, entriesDocument_eq, Json.tokens_map, List.map_map]
    refine Json.scans_map fun e mem => Json.scans_entry ?_
    have child : e.2 ∈ (map entries).children := List.mem_map_of_mem mem
    exact ih e.2 child (h.child child)
  | date d => exact Json.scans_string d.text
  | localTime t => exact Json.scans_string t.text
  | dateTime dt => exact Json.scans_string dt.isoText
  | localDateTime dt => exact Json.scans_string (dt.text "T")

theorem isScalar_document_float (x : Float) : (float x).document.IsScalar := by
  rw [document]
  cases written : (Decimal.json? x).bind fun text => Json.number? text.toList with
  | none => trivial
  | some j =>
    obtain ⟨text, -, number⟩ := Option.bind_eq_some_iff.mp written
    exact (Json.sound_number? number).isScalar

/-- The document of a value nests as deep as the value. -/
theorem depth_document (v : Value) : v.document.depth = v.depth := by
  induction v using Value.induction with
  | step v ih =>
  cases v with
  | float x => exact Json.depth_scalar (isScalar_document_float x)
  | bytes bs =>
    have flat : Json.itemsDepth (bs.map fun b => .integer b.toNat) ≤ 0 :=
      Json.itemsDepth_le.mpr (List.forall_mem_map.mpr fun b _ => le_rfl)
    rw [document, Json.depth, depth, Nat.le_zero.mp flat]
  | list vs =>
    have items (vs : List Value) (ih : ∀ v ∈ vs, v.document.depth = v.depth) :
        Json.itemsDepth (itemsDocument vs) = itemsDepth vs := by
      induction vs with
      | nil => rfl
      | cons v vs more =>
        obtain ⟨same, ih⟩ := List.forall_mem_cons.mp ih
        rw [itemsDocument, Json.itemsDepth, itemsDepth, same, more ih]
    rw [document, Json.depth, depth, items vs ih]
  | map es =>
    have entries (es : List (String × Value)) (ih : ∀ e ∈ es, e.2.document.depth = e.2.depth) :
        Json.entriesDepth (entriesDocument es) = entriesDepth es := by
      induction es with
      | nil => rfl
      | cons e es more =>
        obtain ⟨same, ih⟩ := List.forall_mem_cons.mp ih
        rw [entriesDocument, Json.entriesDepth, entriesDepth, same, more ih]
    rw [document, Json.depth, depth, entries es fun e mem => ih e.2 (List.mem_map_of_mem mem)]
  | _ => rfl

/-! ## What is read of it -/

theorem ofItems_eq (js : List GraphSession.Json) : ofItems js = js.map ofJson := by
  induction js with
  | nil => rfl
  | cons j js ih => rw [ofItems, ih, List.map_cons]

theorem ofEntries_eq (es : List (String × GraphSession.Json)) :
    ofEntries es = es.map fun e => (e.1, ofJson e.2) := by
  induction es with
  | nil => rfl
  | cons e es ih => rw [ofEntries, ih, List.map_cons]

theorem mem_ofEntries {e : String × Value} {es : List (String × GraphSession.Json)}
    (mem : e ∈ ofEntries es) : ∃ d ∈ es, (d.1, ofJson d.2) = e := by
  rw [ofEntries_eq] at mem
  exact List.mem_map.mp mem

theorem beqItems_map {f : Value → Value} {vs : List Value} :
    beqItems (vs.map f) vs = true ↔ ∀ v ∈ vs, beq (f v) v = true := by
  induction vs with
  | nil => simp [beqItems]
  | cons v vs ih => rw [List.map_cons, beqItems, Bool.and_eq_true, ih, List.forall_mem_cons]

theorem beqEntries_map {f : Value → Value} {es : List (String × Value)} :
    beqEntries (es.map fun e => (e.1, f e.2)) es = true ↔ ∀ e ∈ es, beq (f e.2) e.2 = true := by
  induction es with
  | nil => simp [beqEntries]
  | cons e es ih =>
    rw [List.map_cons, beqEntries, Bool.and_eq_true, Bool.and_eq_true, ih, List.forall_mem_cons,
      beq_self_eq_true]
    simp

/-- A list is read as bytes if each of its items is one. -/
theorem isSome_mapM_byte? {js : List GraphSession.Json} :
    (js.mapM byte?).isSome = true ↔ ∀ j ∈ js, (byte? j).isSome = true := by
  induction js with
  | nil => simp
  | cons j js ih =>
    rw [List.forall_mem_cons, ← ih, List.mapM_cons]
    cases byte? j with
    | none => simp
    | some b => cases js.mapM byte? <;> simp

theorem byte?_integer {i : Int} (low : 0 ≤ i) (high : i ≤ 255) :
    byte? (.integer i) = some (UInt8.ofNat i.toNat) := if_pos ⟨low, high⟩

theorem isSome_byte? {j : GraphSession.Json} (isByte : (byte? j).isSome = true) :
    ∃ i, j = .integer i ∧ 0 ≤ i ∧ i ≤ 255 := by
  unfold byte? at isByte
  split at isByte
  · next i =>
    split at isByte
    · next fits => exact ⟨i, rfl, fits⟩
    · cases isByte
  · cases isByte

theorem fits_iff {i : Int} : Int64.minValue.toInt ≤ i ∧ i ≤ Int64.maxValue.toInt ↔
    -2 ^ 63 ≤ i ∧ i < 2 ^ 63 := by
  have min : Int64.minValue.toInt = -2 ^ 63 := rfl
  have max : Int64.maxValue.toInt = 2 ^ 63 - 1 := rfl
  rw [min, max]
  omega

theorem ofInteger_of_fits {i : Int} (low : -2 ^ 63 ≤ i) (high : i < 2 ^ 63) :
    ofInteger i = integer (Int64.ofInt i) := if_pos (fits_iff.mpr ⟨low, high⟩)

theorem ofInteger_toInt (i : Int64) : ofInteger i.toInt = integer i := by
  rw [ofInteger_of_fits i.le_toInt i.toInt_lt, Int64.ofInt_toInt]

theorem isSome_byte?_document {v : Value} (h : v.Regular) :
    (byte? v.document).isSome = true ↔ v.IsByte := by
  constructor
  · intro isByte
    obtain ⟨i, same, low, high⟩ := isSome_byte? isByte
    cases v with
    | integer k =>
      cases same
      exact ⟨k, rfl, low, high⟩
    | float x =>
      cases finite : x.isFinite with
      | true =>
        obtain ⟨text, -, -, double⟩ := (h.reads x (self_mem_parts _) finite).number
        rw [double] at same
        cases same
      | false =>
        rw [(document_infinite finite).2] at same
        cases same
    | _ => cases same
  · rintro ⟨i, rfl, low, high⟩
    rw [document, byte?_integer low high]
    rfl

/-- Of bytes the same bytes are read. -/
theorem mapM_byte?_bytes (bs : List UInt8) :
    (bs.map fun b => GraphSession.Json.integer b.toNat).mapM byte? = some bs := by
  induction bs with
  | nil => rfl
  | cons b bs ih =>
    have byte : byte? (.integer b.toNat) = some b := by
      rw [byte?_integer (by omega) (by have := b.toNat_lt; omega), Int.toNat_natCast,
        UInt8.ofNat_toNat]
    rw [List.map_cons, List.mapM_cons, byte, ih]
    rfl

/-- What is written of a value is read as an equal one exactly if no part of it is misread. -/
theorem beq_ofJson_document {v : Value} (h : v.Regular) :
    beq (ofJson v.document) v = true ↔ ∀ part ∈ v.parts, ¬ part.Misread := by
  induction v using Value.induction with
  | step v ih =>
  rw [forall_parts]
  cases v with
  | float x =>
    cases finite : x.isFinite with
    | true =>
      obtain ⟨text, -, -, double⟩ := (h.reads x (self_mem_parts _) finite).number
      rw [double]
      simp [ofJson, beq, Double.beq_self finite, Misread, finite, children]
    | false =>
      rw [(document_infinite finite).2]
      simp [beq, ofJson, Misread, finite]
  | integer i =>
    rw [document, ofJson, ofInteger_toInt]
    simp [beq, Misread, children]
  | bytes bs =>
    rw [document, ofJson, mapM_byte?_bytes]
    simp [beq, Misread, children]
  | list vs =>
    have equal : (∀ u ∈ vs, beq (ofJson u.document) u = true) ↔
        ∀ u ∈ vs, ∀ part ∈ u.parts, ¬ part.Misread :=
      forall₂_congr fun u mem => ih u mem (h.child mem)
    have small : (vs.map document).mapM byte? = none ↔ ¬ Misread (list vs) := by
      rw [← Option.not_isSome_iff_eq_none, isSome_mapM_byte?, List.forall_mem_map]
      exact not_congr (forall₂_congr fun u mem => isSome_byte?_document (h.child mem))
    rw [document, itemsDocument_eq, ofJson]
    cases read : (vs.map document).mapM byte? with
    | some bs =>
      have misread : Misread (list vs) := not_not.mp fun h => by
        rw [small.mpr h] at read
        cases read
      exact iff_of_false Bool.false_ne_true fun h => h.1 misread
    | none =>
      show beqItems (ofItems (vs.map document)) vs = true ↔ _
      rw [ofItems_eq, List.map_map, beqItems_map]
      exact (equal.trans (and_iff_right (small.mp read)).symm)
  | map es =>
    have equal : (∀ e ∈ es, beq (ofJson e.2.document) e.2 = true) ↔
        ∀ u ∈ (map es).children, ∀ part ∈ u.parts, ¬ part.Misread := by
      rw [children, List.forall_mem_map]
      exact forall₂_congr fun e mem =>
        ih e.2 (List.mem_map_of_mem mem) (h.child (List.mem_map_of_mem mem))
    have ascends : Fields.Ascends (es.map fun e => (e.1, ofJson e.2.document)) :=
      List.pairwise_map.mpr (h.ascends es (self_mem_parts _))
    rw [document, entriesDocument_eq, ofJson, ofEntries_eq, List.map_map]
    show beq (map (Fields.ofList (es.map fun e => (e.1, ofJson e.2.document))).entries) (map es) =
      true ↔ _
    rw [Fields.entries_ofList ascends, beq, beqEntries_map (f := fun v => ofJson v.document),
      equal]
    exact (and_iff_right (fun misread => misread)).symm
  | _ => simp [beq, document, ofJson, Misread, children]

/-- Reading what is written of a value gives an equal value. -/
def RoundTrips (v : Value) : Prop := ∃ w, ofJsonText? v.toJsonText = some w ∧ (w == v) = true

theorem ofJsonText?_toJsonText {v : Value} (h : v.Regular) :
    ofJsonText? v.toJsonText = if v.depth ≤ 127 then some (ofJson v.document) else none := by
  have limit : Json.Reader.depthLimit = 127 := rfl
  rw [ofJsonText?, toJsonText, Json.parse?_of_scans (scans_document h), depth_document, limit]
  split <;> rfl

theorem roundTrips_iff {v : Value} (h : v.Regular) :
    v.RoundTrips ↔ (∀ part ∈ v.parts, ¬ part.Misread) ∧ v.depth ≤ 127 := by
  rw [RoundTrips, ofJsonText?_toJsonText h, ← beq_ofJson_document h]
  constructor
  · rintro ⟨w, read, equal⟩
    obtain ⟨fits, same⟩ := Option.ite_none_right_eq_some.mp read
    cases same
    exact ⟨equal, fits⟩
  · rintro ⟨equal, fits⟩
    exact ⟨ofJson v.document, if_pos fits, equal⟩

/-! ## Values of texts -/

/-- What is read does not nest deeper than its document. -/
theorem depth_ofJson_le (j : GraphSession.Json) : (ofJson j).depth ≤ j.depth := by
  induction j using Json.induction with
  | step j ih =>
  cases j with
  | integer i =>
    rw [ofJson, ofInteger]
    split <;> exact le_rfl
  | list js =>
    rw [ofJson]
    split
    · exact Nat.le_add_left 1 _
    · refine Nat.succ_le_succ (itemsDepth_le.mpr ?_)
      rw [ofItems_eq, List.forall_mem_map]
      exact fun i mem => (ih i mem).trans (Json.itemsDepth_le.mp le_rfl i mem)
  | map es =>
    rw [ofJson]
    refine Nat.succ_le_succ (entriesDepth_le.mpr fun e mem => ?_)
    obtain ⟨d, inside, rfl⟩ := mem_ofEntries (Fields.mem_ofList mem)
    exact (ih d.2 (List.mem_map_of_mem inside)).trans (Json.entriesDepth_le.mp le_rfl d inside)
  | _ => exact Nat.zero_le _

/-- An integer of a text is a byte only if it is read as one. -/
theorem isSome_byte?_of_isByte {j : GraphSession.Json} (isByte : (ofJson j).IsByte) :
    (byte? j).isSome = true := by
  obtain ⟨i, same, low, high⟩ := isByte
  cases j with
  | integer k =>
    rw [ofJson, ofInteger] at same
    split at same
    · next fits =>
      cases same
      have fits := fits_iff.mp fits
      rw [Int64.toInt_ofInt_of_le fits.1 fits.2] at low high
      rw [byte?_integer low high]
      rfl
    · cases same
  | list js =>
    rw [ofJson] at same
    split at same <;> cases same
  | _ => cases same

/-- An integer of a text that does not fit in sixty-four bits with a sign. -/
theorem isFinite_ofInt {i : Int} (sound : (GraphSession.Json.integer i).Sound)
    (large : ¬ (Int64.minValue.toInt ≤ i ∧ i ≤ Int64.maxValue.toInt)) :
    (Float.ofInt i).isFinite = true := by
  have sound : -2 ^ 63 ≤ i ∧ i < 2 ^ 64 := sound
  rw [fits_iff] at large
  obtain ⟨n, rfl⟩ := Int.eq_ofNat_of_zero_le (show 0 ≤ i by omega)
  exact Double.isFinite_ofNat (by omega)

/-- What is read has ascending names and no part that is misread. -/
theorem parts_ofJson {j : GraphSession.Json} (sound : ∀ i, .scalar i ∈ j.tokens → i.Sound) :
    ∀ part ∈ (ofJson j).parts, ¬ part.Misread ∧ ∀ es, part = map es → Fields.Ascends es := by
  induction j using Json.induction with
  | step j ih =>
  have below {u : GraphSession.Json} (child : u ∈ j.children) :=
    ih u child fun i mem => sound i (Json.mem_tokens_of_child child mem)
  rw [forall_parts]
  cases j with
  | integer i =>
    rw [ofJson, ofInteger]
    split
    · simp [Misread, children]
    · next large =>
      have finite : (Float.ofInt i).isFinite = true :=
        isFinite_ofInt (sound (.integer i) List.mem_cons_self) large
      simp [Misread, children, finite]
  | float x =>
    have finite : x.isFinite = true := sound (.float x) List.mem_cons_self
    simp [ofJson, Misread, children, finite]
  | list js =>
    rw [ofJson]
    cases read : js.mapM byte? with
    | some bs => simp [Misread, children]
    | none =>
      rw [ofItems_eq]
      refine ⟨⟨fun bytes => ?_, fun es same => by cases same⟩, fun u mem => ?_⟩
      · have all := isSome_mapM_byte?.mpr fun i mem =>
          isSome_byte?_of_isByte (bytes (ofJson i) (List.mem_map_of_mem mem))
        rw [read] at all
        cases all
      · obtain ⟨i, inside, rfl⟩ := List.mem_map.mp mem
        exact below inside
  | map es =>
    refine ⟨⟨fun misread => misread, fun es' same => ?_⟩, fun u mem => ?_⟩
    · cases same
      exact (Fields.ofList _).ascends
    · obtain ⟨e, given, rfl⟩ := List.mem_map.mp mem
      obtain ⟨d, inside, rfl⟩ := mem_ofEntries (Fields.mem_ofList given)
      exact below (List.mem_map_of_mem inside)
  | _ => simp [ofJson, Misread, children]

theorem roundTrips_of_text {text : String} {w : Value} (read : ofJsonText? text = some w)
    (reads : ∀ x, float x ∈ w.parts → x.isFinite = true → ReadsBack x) : w.RoundTrips := by
  obtain ⟨j, parsed, rfl⟩ := Option.map_eq_some_iff.mp read
  obtain ⟨fits, sound⟩ := Json.sound_of_parse? parsed
  have parts := parts_ofJson sound
  have regular : (ofJson j).Regular := ⟨fun es mem => (parts _ mem).2 es rfl, reads⟩
  exact (roundTrips_iff regular).mpr ⟨fun part mem => (parts part mem).1,
    (depth_ofJson_le j).trans fits⟩

/-- What becomes of a value that is written and read again, where the texts of its doubles are
    parsed as the same doubles.  It is read back as an equal one exactly if it holds at no depth a
    date or a time, a double that is no finite number, or a list of nothing but integers from 0 to
    255, and lists, maps and bytes nest at most 127 deep in it.  What was read from a text is always
    read back. -/
theorem values_round_trip :
    (∀ v : Value, v.Regular →
      (v.RoundTrips ↔ (∀ part ∈ v.parts, ¬ part.Misread) ∧ v.depth ≤ 127)) ∧
    ∀ (text : String) (w : Value), ofJsonText? text = some w →
      (∀ x, float x ∈ w.parts → x.isFinite = true → ReadsBack x) → w.RoundTrips :=
  ⟨fun _ => roundTrips_iff, fun _ _ => roundTrips_of_text⟩

/-- Whether a document is a double, bit by bit. -/
def isDouble (x : Float) : GraphSession.Json → Bool
  | .float y => y.toModel = x.toModel
  | _ => false

theorem readsBack_of_isDouble {x : Float}
    (read : ((Decimal.json? x).bind Json.parse?).any (isDouble x) = true) : ReadsBack x := by
  obtain ⟨j, found, same⟩ := (Option.any_eq_true _ _).mp read
  unfold isDouble at same
  split at same
  · next y =>
    have same : y = x := congrArg Float.ofModel (of_decide_eq_true same)
    rw [ReadsBack, found, same]
  · cases same

/-- A value of many kinds. -/
def mixed : Value :=
  list [float 0.5, list [integer 300, null], map [("a", bytes [1, 2]), ("b", string "b")]]

theorem mixed_parts {part : Value} (mem : part ∈ mixed.parts) :
    part = mixed ∨ part = float 0.5 ∨ part = list [integer 300, null] ∨ part = integer 300 ∨
      part = null ∨ part = map [("a", bytes [1, 2]), ("b", string "b")] ∨ part = bytes [1, 2] ∨
        part = string "b" := by
  simpa [mixed, parts, itemsParts, entriesParts] using mem

theorem mixed_regular : mixed.Regular where
  ascends es mem := by
    have := mixed_parts mem
    simp only [mixed, reduceCtorEq, false_or, or_false, map.injEq] at this
    subst this
    decide
  reads x mem _ := by
    have := mixed_parts mem
    simp only [mixed, reduceCtorEq, false_or, or_false, float.injEq] at this
    subst this
    exact readsBack_of_isDouble (by decide +kernel)

/-- It is read back, and so are bytes that were read. -/
theorem mixed_round_trip : mixed.RoundTrips ∧ (bytes [1, 2]).RoundTrips := by
  refine ⟨(values_round_trip.1 mixed mixed_regular).mpr ⟨fun part mem => ?_, by decide⟩,
    values_round_trip.2 "[1,2]" _ rfl fun x mem => ?_⟩
  · have finite : (0.5 : Float).isFinite = true := by decide +kernel
    rcases mixed_parts mem with rfl | rfl | rfl | rfl | rfl | rfl | rfl | rfl <;>
      simp [mixed, Misread, IsByte, finite]
  · cases List.mem_singleton.mp mem

/-- Nothing inside of lists, so many. -/
def nested : Nat → Value
  | 0 => null
  | n + 1 => list [nested n]

theorem nested_parts {n : Nat} {part : Value} (mem : part ∈ (nested n).parts) :
    ∃ k, part = nested k := by
  induction n with
  | zero => exact ⟨0, List.mem_singleton.mp mem⟩
  | succ n ih =>
    rcases mem_parts.mp mem with rfl | ⟨u, child, mem⟩
    · exact ⟨n + 1, rfl⟩
    · obtain rfl := List.mem_singleton.mp child
      exact ih mem

theorem nested_not_misread (n : Nat) : ¬ (nested n).Misread := by
  cases n with
  | zero => exact fun misread => misread
  | succ n =>
    intro misread
    obtain ⟨i, same, -⟩ := misread (nested n) List.mem_cons_self
    cases n <;> cases same

theorem nested_regular (n : Nat) : (nested n).Regular where
  ascends es mem := by
    obtain ⟨k, same⟩ := nested_parts mem
    cases k <;> cases same
  reads x mem := by
    obtain ⟨k, same⟩ := nested_parts mem
    cases k <;> cases same

theorem depth_nested (n : Nat) : (nested n).depth = n := by
  induction n with
  | zero => rfl
  | succ n ih => rw [nested, depth, itemsDepth, itemsDepth, ih, Nat.max_zero]

theorem nested_roundTrips_iff (n : Nat) : (nested n).RoundTrips ↔ n ≤ 127 := by
  rw [roundTrips_iff (nested_regular n), depth_nested, and_iff_right]
  intro part mem
  obtain ⟨k, rfl⟩ := nested_parts mem
  exact nested_not_misread k

/-- One list too many: nothing is misread, and yet it is not read back. -/
theorem nested_too_deep : (nested 128).Regular ∧ (∀ part ∈ (nested 128).parts, ¬ part.Misread) ∧
    ¬ (nested 128).RoundTrips := by
  refine ⟨nested_regular 128, fun part mem => ?_, fun read => ?_⟩
  · obtain ⟨k, rfl⟩ := nested_parts mem
    exact nested_not_misread k
  · exact absurd ((nested_roundTrips_iff 128).mp read) (by decide)

end GraphSession.Value
