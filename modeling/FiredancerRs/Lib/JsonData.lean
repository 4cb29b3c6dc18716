import FiredancerRs.Lib.Json

/-!
# JSON data

What a JSON value stands for, apart from its whitespace, its escapes and the order of its members
(`Value.Denotes`), and the text without whitespace and escapes that stands for given data
(`Data.render`). No text that stands for the data is shorter (`Value.Denotes.length_le`).

Numbers are natural numbers that are written as their numerals, and strings are ASCII.
-/

namespace Json

/-- What a value stands for. -/
inductive Data where
  | null
  | bool (b : Bool)
  | number (n : Nat)
  | string (text : List UInt8)
  | array (items : List Data)
  | object (members : List (List UInt8 × Data))

mutual

/-- The value stands for the data. -/
inductive Value.Denotes : Value → Data → Prop
  | null : Value.Denotes .null .null
  | bool (b : Bool) : Value.Denotes (.bool b) (.bool b)
  | number {n : Number} {k : Nat} :
      n.render = Decimal.render k → Value.Denotes (.number n) (.number k)
  | string {s : Str} {text : List UInt8} :
      s.Spells text → Value.Denotes (.string s) (.string text)
  | emptyArray (space : Space) : Value.Denotes (.emptyArray space) (.array [])
  | array {elements : Elements} {items : List Data} :
      Elements.Denotes elements items → Value.Denotes (.array elements) (.array items)
  | emptyObject (space : Space) : Value.Denotes (.emptyObject space) (.object [])
  | object {members : Members} {fields fields' : List (List UInt8 × Data)} :
      Members.Denotes members fields → fields.Perm fields' →
      Value.Denotes (.object members) (.object fields')

/-- The elements stand for the data, in order. -/
inductive Elements.Denotes : Elements → List Data → Prop
  | last (before after : Space) {value : Value} {d : Data} :
      Value.Denotes value d → Elements.Denotes (.last before value after) [d]
  | more (before after : Space) {value : Value} {rest : Elements} {d : Data} {ds : List Data} :
      Value.Denotes value d → Elements.Denotes rest ds →
      Elements.Denotes (.more before value after rest) (d :: ds)

/-- The members stand for the names and the data, in order. -/
inductive Members.Denotes : Members → List (List UInt8 × Data) → Prop
  | last (before after : Space) {key : Key} {value : Value} {name : List UInt8} {d : Data} :
      key.name.Spells name → Value.Denotes value d →
      Members.Denotes (.last key before value after) [(name, d)]
  | more (before after : Space) {key : Key} {value : Value} {rest : Members} {name : List UInt8}
      {d : Data} {fields : List (List UInt8 × Data)} :
      key.name.Spells name → Value.Denotes value d → Members.Denotes rest fields →
      Members.Denotes (.more key before value after rest) ((name, d) :: fields)

end

/-- A text between quotes. -/
def quoted (text : List UInt8) : List UInt8 := Ascii.quote :: (text ++ [Ascii.quote])

mutual

/-- The text of the data, without whitespace and escapes. -/
def Data.render : Data → List UInt8
  | .null => nullText
  | .bool true => trueText
  | .bool false => falseText
  | .number n => Decimal.render n
  | .string text => quoted text
  | .array items => Ascii.openBracket :: (renderItems items ++ [Ascii.closeBracket])
  | .object members => Ascii.openBrace :: (renderMembers members ++ [Ascii.closeBrace])

/-- The texts of items, with commas in between. -/
def renderItems : List Data → List UInt8
  | [] => []
  | [d] => d.render
  | d :: ds => d.render ++ Ascii.comma :: renderItems ds

/-- The texts of members, with commas in between. -/
def renderMembers : List (List UInt8 × Data) → List UInt8
  | [] => []
  | [(name, d)] => quoted name ++ Ascii.colon :: d.render
  | (name, d) :: fields =>
    quoted name ++ Ascii.colon :: (d.render ++ Ascii.comma :: renderMembers fields)

end

/-! ### Texts without escapes -/

/-- A byte that stands for itself in a string. -/
def isPlain (c : UInt8) : Bool :=
  Ascii.space ≤ c && c ≠ Ascii.quote && c ≠ Ascii.backslash && c < 0x80

/-- The strings of the data need no escapes. -/
inductive Data.Plain : Data → Prop
  | null : Data.Plain .null
  | bool (b : Bool) : Data.Plain (.bool b)
  | number (n : Nat) : Data.Plain (.number n)
  | string {text : List UInt8} : text.all isPlain = true → Data.Plain (.string text)
  | array {items : List Data} : (∀ d ∈ items, Data.Plain d) → Data.Plain (.array items)
  | object {members : List (List UInt8 × Data)} :
      (∀ m ∈ members, m.1.all isPlain = true) → (∀ m ∈ members, Data.Plain m.2) →
      Data.Plain (.object members)

theorem Data.Plain.array_nil :
  (Data.array []).Plain
  := .array (List.forall_mem_nil _)

theorem Data.Plain.array_cons {d : Data} {items : List Data} (hd : d.Plain)
    (h : (Data.array items).Plain) :
  (Data.array (d :: items)).Plain
  := by
  cases h with
  | array h => exact .array (List.forall_mem_cons.mpr ⟨hd, h⟩)

theorem Data.Plain.object_nil :
  (Data.object []).Plain
  := .object (List.forall_mem_nil _) (List.forall_mem_nil _)

theorem Data.Plain.object_cons {name : List UInt8} {d : Data}
    {members : List (List UInt8 × Data)} (hname : name.all isPlain = true) (hd : d.Plain)
    (h : (Data.object members).Plain) :
  (Data.object ((name, d) :: members)).Plain
  := by
  cases h with
  | object hnames hvalues =>
    apply Data.Plain.object
    · exact List.forall_mem_cons.mpr ⟨hname, hnames⟩
    · exact List.forall_mem_cons.mpr ⟨hd, hvalues⟩

/-- Bytes that need no escape are what the string of these bytes has between its quotes. -/
theorem Str.raw_ofAscii_of_unescaped :
  ∀ {text : List UInt8},
    (∀ c ∈ text, Ascii.space ≤ c ∧ c ≠ Ascii.quote ∧ c ≠ Ascii.backslash) →
      (Str.ofAscii text).raw = text
  | [], _ => rfl
  | c :: text, h => by
      obtain ⟨hc, htext⟩ := List.forall_mem_cons.mp h
      have ih : (Str.ofAscii text).raw = text := Str.raw_ofAscii_of_unescaped htext
      have hcons : Str.ofAscii (c :: text)
          = .plain c hc.1 hc.2.1 hc.2.2 :: Str.ofAscii text := by
        rw [Str.ofAscii, List.filterMap_cons, dif_pos hc]
        rfl
      rw [hcons]
      change c :: (Str.ofAscii text).raw = c :: text
      rw [ih]

/-- The string of plain bytes has these bytes between its quotes. -/
theorem Str.raw_ofAscii {text : List UInt8} (h : text.all isPlain = true) :
  (Str.ofAscii text).raw = text
  := by
  apply Str.raw_ofAscii_of_unescaped
  intro c hc
  have hplain := List.all_eq_true.mp h c hc
  simp only [isPlain, Bool.and_eq_true, decide_eq_true_iff, ne_eq] at hplain
  obtain ⟨⟨⟨hcontrol, hquote⟩, hbackslash⟩, -⟩ := hplain
  exact ⟨hcontrol, hquote, hbackslash⟩

theorem Str.render_ofAscii {text : List UInt8} (h : text.all isPlain = true) :
  (Str.ofAscii text).render = quoted text
  := by
  rw [Str.render, Str.raw_ofAscii h, quoted]

theorem Str.spells_ofAscii {text : List UInt8} (h : text.all isPlain = true) :
  (Str.ofAscii text).Spells text
  := by
  apply Str.spells_plain (Str.raw_ofAscii h)
  intro c hc
  have hplain := List.all_eq_true.mp h c hc
  simp only [isPlain, Bool.and_eq_true, decide_eq_true_iff, ne_eq] at hplain
  exact ⟨hplain.1.2, hplain.2⟩

/-- The number that is written as the numeral of `n`. -/
def Number.ofNat (n : Nat) : Number where
  neg := false
  int := ⟨Decimal.render n, Decimal.render_ne_nil n, fun _ => Decimal.isDigit_of_mem_render⟩
  no_leading_zero := Decimal.render_no_leading_zero n
  frac := none
  exp := none

theorem Number.render_ofNat (n : Nat) :
  (Number.ofNat n).render = Decimal.render n
  := by
  simp [Number.render, Number.ofNat, renderFrac, renderExp]

mutual

/-- Plain data has a value with its text. -/
theorem Data.exists_value :
  ∀ {d : Data}, d.Plain → ∃ v : Value, v.render = d.render ∧ v.Denotes d
  | .null, _ => ⟨.null, rfl, .null⟩
  | .bool b, _ => ⟨.bool b, by cases b <;> rfl, .bool b⟩
  | .number n, _ => ⟨.number (.ofNat n), Number.render_ofNat n, .number (Number.render_ofNat n)⟩
  | .string text, h => by
      cases h with
      | string h => exact ⟨.string (.ofAscii text), Str.render_ofAscii h, .string (Str.spells_ofAscii h)⟩
  | .array [], _ => ⟨.emptyArray .empty, rfl, .emptyArray .empty⟩
  | .array (d :: ds), h => by
      cases h with
      | array h =>
        obtain ⟨elements, hrender, hdenotes⟩ := exists_elements d ds h
        refine ⟨.array elements, ?_, .array hdenotes⟩
        rw [Value.render, Data.render, hrender]
  | .object [], _ => ⟨.emptyObject .empty, rfl, .emptyObject .empty⟩
  | .object (m :: ms), h => by
      cases h with
      | object hnames hvalues =>
        obtain ⟨members, hrender, hdenotes⟩ := exists_members m ms hnames hvalues
        refine ⟨.object members, ?_, .object hdenotes (.refl _)⟩
        rw [Value.render, Data.render, hrender]
termination_by d => sizeOf d

/-- Plain items have elements with their text. -/
theorem exists_elements :
  ∀ (d : Data) (ds : List Data), (∀ x ∈ d :: ds, x.Plain) →
    ∃ elements : Elements, elements.render = renderItems (d :: ds) ∧ elements.Denotes (d :: ds)
  | d, [], h => by
      obtain ⟨v, hrender, hdenotes⟩ := Data.exists_value (h d List.mem_cons_self)
      refine ⟨.last .empty v .empty, ?_, .last _ _ hdenotes⟩
      simp [Elements.render, Space.empty, renderItems, hrender]
  | d, d' :: ds, h => by
      obtain ⟨v, hrender, hdenotes⟩ := Data.exists_value (h d List.mem_cons_self)
      obtain ⟨rest, hrest, hdenotes'⟩ :=
        exists_elements d' ds fun x hx => h x (List.mem_cons_of_mem d hx)
      refine ⟨.more .empty v .empty rest, ?_, .more _ _ hdenotes hdenotes'⟩
      simp [Elements.render, Space.empty, renderItems, hrender, hrest]
termination_by d ds => sizeOf (d :: ds)

/-- Plain members have members with their text. -/
theorem exists_members :
  ∀ (m : List UInt8 × Data) (ms : List (List UInt8 × Data)),
    (∀ x ∈ m :: ms, x.1.all isPlain = true) → (∀ x ∈ m :: ms, x.2.Plain) →
    ∃ members : Members, members.render = renderMembers (m :: ms) ∧ members.Denotes (m :: ms)
  | (name, d), [], hnames, hvalues => by
      have hname := hnames _ List.mem_cons_self
      obtain ⟨v, hrender, hdenotes⟩ := Data.exists_value (hvalues _ List.mem_cons_self)
      refine ⟨.last (.ofAscii name) .empty v .empty, ?_,
        .last _ _ (Str.spells_ofAscii hname) hdenotes⟩
      simp [Members.render, Key.render, Key.ofAscii, Space.empty, renderMembers, hrender,
        Str.render_ofAscii hname]
  | (name, d), m :: ms, hnames, hvalues => by
      have hname := hnames _ List.mem_cons_self
      obtain ⟨v, hrender, hdenotes⟩ := Data.exists_value (hvalues _ List.mem_cons_self)
      obtain ⟨rest, hrest, hdenotes'⟩ :=
        exists_members m ms (fun x hx => hnames x (List.mem_cons_of_mem _ hx))
          fun x hx => hvalues x (List.mem_cons_of_mem _ hx)
      refine ⟨.more (.ofAscii name) .empty v .empty rest, ?_,
        .more _ _ (Str.spells_ofAscii hname) hdenotes hdenotes'⟩
      simp [Members.render, Key.render, Key.ofAscii, Space.empty, renderMembers, hrender, hrest,
        Str.render_ofAscii hname]
termination_by m ms => sizeOf (m :: ms)

end

/-! ### Shortest texts -/

/-- A part of a string takes at least as many bytes as it stands for. -/
theorem Str.Spells.length_le :
  ∀ {s : Str} {text : List UInt8}, s.Spells text → text.length ≤ s.raw.length
  | [], text, h => by
      obtain rfl : [] = text := Option.some.inj h
      apply Nat.le_refl _
  | part :: s, text, h => by
      rw [Str.Spells, List.mapM_cons] at h
      obtain ⟨c, -, h⟩ := Option.bind_eq_some_iff.mp h
      obtain ⟨text', htext', h⟩ := Option.bind_eq_some_iff.mp h
      obtain rfl : c :: text' = text := Option.some.inj h
      have ih : text'.length ≤ (Str.raw s).length := Str.Spells.length_le htext'
      have hraw : Str.raw (part :: s) = part.render ++ Str.raw s := rfl
      have hpart : 1 ≤ part.render.length := by cases part <;> simp [Part.render]
      rw [hraw, List.length_append, List.length_cons]
      omega

/-- The room that a member takes, with a comma. -/
def memberSize (m : List UInt8 × Data) : Nat := (quoted m.1).length + m.2.render.length + 2

theorem length_renderMembers :
  ∀ (m : List UInt8 × Data) (ms : List (List UInt8 × Data)),
    (renderMembers (m :: ms)).length + 1 = ((m :: ms).map memberSize).sum
  | (name, d), [] => by
      simp [renderMembers, memberSize]
      omega
  | (name, d), m :: ms => by
      have ih := length_renderMembers m ms
      simp only [renderMembers, List.map_cons, List.sum_cons, List.length_append, List.length_cons,
        memberSize] at ih ⊢
      omega

/-- The length of the text of members does not depend on their order. -/
theorem length_renderMembers_perm {ms ms' : List (List UInt8 × Data)} (h : ms.Perm ms') :
  (renderMembers ms).length = (renderMembers ms').length
  := by
  have hsum := (h.map memberSize).sum_eq
  cases ms with
  | nil => rw [h.nil_eq]
  | cons m ms =>
    cases ms' with
    | nil => exact absurd h.eq_nil (by simp)
    | cons m' ms' =>
      rw [← length_renderMembers, ← length_renderMembers] at hsum
      omega

mutual

/-- No text that stands for data is shorter than the one without whitespace and escapes. -/
theorem Value.Denotes.length_le :
  ∀ {v : Value} {d : Data}, v.Denotes d → d.render.length ≤ v.render.length
  | _, _, .null => Nat.le_refl _
  | _, _, .bool b => by cases b <;> exact Nat.le_refl _
  | _, _, .number h => by
      rw [Data.render, ← h]
      rfl
  | _, _, .string h => by
      have hle := h.length_le
      simp only [Data.render, Value.render, quoted, Str.render, List.length_cons,
        List.length_append]
      omega
  | _, _, .emptyArray space => by simp [Data.render, Value.render, renderItems]
  | _, _, .array h => by
      have hle := h.length_le
      simp only [Data.render, Value.render, List.length_cons, List.length_append]
      omega
  | _, _, .emptyObject space => by simp [Data.render, Value.render, renderMembers]
  | _, _, .object h hperm => by
      have hle := h.length_le
      have hlength := length_renderMembers_perm hperm
      simp only [Data.render, Value.render, List.length_cons, List.length_append]
      omega

theorem Elements.Denotes.length_le :
  ∀ {elements : Elements} {ds : List Data}, elements.Denotes ds →
    (renderItems ds).length ≤ elements.render.length
  | _, _, .last _ _ h => by
      have hle := h.length_le
      simp only [renderItems, Elements.render, List.length_append]
      omega
  | .more _ _ _ rest, d :: ds, .more _ _ h hrest => by
      have hle := h.length_le
      have hle' := hrest.length_le
      cases ds with
      | nil =>
        simp only [renderItems, Elements.render, List.length_append, List.length_cons]
        omega
      | cons d' ds =>
        simp only [renderItems, Elements.render, List.length_append, List.length_cons] at hle' ⊢
        omega

theorem Members.Denotes.length_le :
  ∀ {members : Members} {fields : List (List UInt8 × Data)}, members.Denotes fields →
    (renderMembers fields).length ≤ members.render.length
  | _, _, .last _ _ hname h => by
      have hle := h.length_le
      have hspells := hname.length_le
      simp only [renderMembers, Members.render, Key.render, quoted, Str.render, List.length_append,
        List.length_cons]
      omega
  | _, _, .more _ _ hname h hrest => by
      have hle := h.length_le
      have hspells := hname.length_le
      have hle' := hrest.length_le
      cases hrest with
      | last =>
        simp only [renderMembers, Members.render, Key.render, quoted, Str.render,
          List.length_append, List.length_cons] at hle' ⊢
        omega
      | more =>
        simp only [renderMembers, Members.render, Key.render, quoted, Str.render,
          List.length_append, List.length_cons] at hle' ⊢
        omega

end

end Json
