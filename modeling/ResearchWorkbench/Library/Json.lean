import ResearchWorkbench.Library.Decimals

namespace ResearchWorkbench

/-!
# JSON texts

Values of arrays and objects over leaves, and their text as `JSON.stringify` writes it, on lists of
code units.

* `JsonTree`, `JsonTree.induct` — the values, objects with their entries in order;
* `Json`, `stringify` — the values that JSON has, and their text;
* `quote_append_inj` — a quoted string ends where its text says;
* `stringify_append_inj`, `stringify_injective` — two values with one text are the same value, with
  the entries of their objects in the same order.
-/

/-- Arrays and objects over leaves.  The fields of an object are its entries in their order. -/
inductive JsonTree (α : Type)
  | leaf (a : α)
  | array (items : List (JsonTree α))
  | object (fields : List (List ℕ × JsonTree α))

/-- The leaves of a JSON value. -/
inductive JsonScalar
  | null
  | bool (b : Bool)
  | number (n : Decimal)
  | string (s : List ℕ)
  deriving DecidableEq

/-- A JSON value. -/
abbrev Json := JsonTree JsonScalar

namespace JsonTree

variable {α β : Type}

/-- Induction over a value: what holds of all items, or of the value of all fields, holds of the
array or of the object. -/
@[elab_as_elim]
theorem induct {motive : JsonTree α → Prop} (leaf : ∀ a, motive (.leaf a))
    (array : ∀ items, (∀ v ∈ items, motive v) → motive (.array items))
    (object : ∀ fields, (∀ f ∈ fields, motive f.2) → motive (.object fields))
    (v : JsonTree α) : motive v := by
  refine @JsonTree.rec α motive (fun items => ∀ v ∈ items, motive v)
    (fun fields => ∀ f ∈ fields, motive f.2) (fun f => motive f.2)
    leaf array object ?_ ?_ ?_ ?_ ?_ v
  · simp
  · intro x items hx hitems
    exact List.forall_mem_cons.mpr ⟨hx, hitems⟩
  · simp
  · intro f fields hf hfields
    exact List.forall_mem_cons.mpr ⟨hf, hfields⟩
  · intro k x hx
    exact hx

end JsonTree

/-! ### Quoted strings -/

/-- Four hexadecimal digits. -/
def fourHexDigits (c : ℕ) : List ℕ :=
  [digitUnit (c / 4096 % 16), digitUnit (c / 256 % 16), digitUnit (c / 16 % 16), digitUnit (c % 16)]

/-- A code unit in a quoted string, where it is not half of a surrogate pair. -/
def escapeUnit (c : ℕ) : List ℕ :=
  if c = 8 then [92, 98]
  else if c = 9 then [92, 116]
  else if c = 10 then [92, 110]
  else if c = 12 then [92, 102]
  else if c = 13 then [92, 114]
  else if c = 34 then [92, 34]
  else if c = 92 then [92, 92]
  else if c < 32 || isHighSurrogate c || isLowSurrogate c then 92 :: 117 :: fourHexDigits c
  else [c]

/-- What stands between the quotation marks. -/
def quotedUnits : List ℕ → List ℕ
  | [] => []
  | [c] => escapeUnit c
  | c :: d :: rest =>
    if isHighSurrogate c && isLowSurrogate d then c :: d :: quotedUnits rest
    else escapeUnit c ++ quotedUnits (d :: rest)

/-- `JSON.stringify(s)` of a string. -/
def quote (s : List ℕ) : List ℕ := 34 :: (quotedUnits s ++ [34])

/-- What the letter after a backslash stands for. -/
def unescape (c : ℕ) : ℕ :=
  if c = 98 then 8 else if c = 116 then 9 else if c = 110 then 10 else if c = 102 then 12
  else if c = 114 then 13 else c

/-- The first code unit that a text of a quoted string stands for, and the text after it; `none`
where the string ends. -/
def readUnit : List ℕ → Option (ℕ × List ℕ)
  | [] => none
  | c :: t =>
    if c = 34 then none
    else if c = 92 then
      match t with
      | [] => none
      | e :: u =>
        if e = 117 then
          if 4 ≤ u.length then some (numeral 16 (u.take 4), u.drop 4) else none
        else some (unescape e, u)
    else some (c, t)

variable {c d : ℕ} {s s' t t' p r r' : List ℕ}

/-- `p` stands for the code unit `c`, whatever comes after it. -/
def Spells (p : List ℕ) (c : ℕ) : Prop := ∀ r, readUnit (p ++ r) = some (c, r)

theorem spells_self (hquote : c ≠ 34) (hslash : c ≠ 92) : Spells [c] c := by
  intro r
  simp [readUnit, hquote, hslash]

theorem numeral_fourHexDigits (h : c < 65536) : numeral 16 (fourHexDigits c) = c := by
  simp only [numeral, fourHexDigits, List.foldl_cons, List.foldl_nil, digitValue_digitUnit]
  omega

theorem spells_escapeUnit (c : ℕ) : Spells (escapeUnit c) c := by
  intro r
  unfold escapeUnit
  split
  · rename_i h; subst h; rfl
  split
  · rename_i h; subst h; rfl
  split
  · rename_i h; subst h; rfl
  split
  · rename_i h; subst h; rfl
  split
  · rename_i h; subst h; rfl
  split
  · rename_i h; subst h; rfl
  split
  · rename_i h; subst h; rfl
  split
  · rename_i h
    have hc : c < 65536 := by
      simp only [isHighSurrogate, isLowSurrogate, Bool.or_eq_true, Bool.and_eq_true,
        decide_eq_true_eq] at h
      omega
    show (if 4 ≤ (fourHexDigits c ++ r).length then some (numeral 16 (fourHexDigits c), r) else none)
      = some (c, r)
    rw [numeral_fourHexDigits hc, if_pos]
    simp [fourHexDigits]
  · exact spells_self (by omega) (by omega) r

/-- `t` spells the string `s`. -/
inductive SpellsAll : List ℕ → List ℕ → Prop
  | nil : SpellsAll [] []
  | cons {p t s : List ℕ} {c : ℕ} (unit : Spells p c) (rest : SpellsAll t s) : SpellsAll (p ++ t) (c :: s)

theorem spellsAll_quotedUnits (s : List ℕ) : SpellsAll (quotedUnits s) s := by
  fun_induction quotedUnits s with
  | case1 => exact .nil
  | case2 c =>
    rw [← List.append_nil (escapeUnit c)]
    exact .cons (spells_escapeUnit c) .nil
  | case3 c d rest h ih =>
    simp only [isHighSurrogate, isLowSurrogate, Bool.and_eq_true, decide_eq_true_eq] at h
    exact .cons (p := [c]) (spells_self (by omega) (by omega))
      (.cons (p := [d]) (spells_self (by omega) (by omega)) ih)
  | case4 c d rest h ih => exact .cons (spells_escapeUnit c) ih

/-- A string can be read up to its closing mark. -/
theorem SpellsAll.append_inj (h : SpellsAll t s) (h' : SpellsAll t' s')
    (heq : t ++ 34 :: r = t' ++ 34 :: r') : s = s' ∧ r = r' := by
  induction h generalizing t' s' with
  | nil =>
    rcases h' with _ | ⟨hunit, hrest⟩
    · exact ⟨rfl, (List.cons.inj heq).2⟩
    · rename_i p t s c
      have hread := hunit (t ++ 34 :: r')
      rw [← List.append_assoc, ← heq] at hread
      exact absurd hread (by simp [readUnit])
  | cons hunit hrest ih =>
    rename_i p t s c
    have hread := hunit (t ++ 34 :: r)
    rw [← List.append_assoc, heq] at hread
    rcases h' with _ | ⟨hunit', hrest'⟩
    · exact absurd hread (by simp [readUnit])
    · rename_i p' t' s' c'
      rw [List.append_assoc, hunit' (t' ++ 34 :: r'), Option.some.injEq, Prod.mk.injEq] at hread
      rcases ih hrest' hread.2.symm with ⟨rfl, rfl⟩
      exact ⟨by rw [hread.1], rfl⟩

/-- **A quoted string ends where its text says.** -/
theorem quote_append_inj (h : quote s ++ r = quote s' ++ r') : s = s' ∧ r = r' := by
  refine (spellsAll_quotedUnits s).append_inj (spellsAll_quotedUnits s') ?_
  simpa [quote] using h

/-! ### Texts of values -/

/-- `JSON.stringify` of a leaf. -/
def scalarText : JsonScalar → List ℕ
  | .null => [110, 117, 108, 108]
  | .bool b => if b then [116, 114, 117, 101] else [102, 97, 108, 115, 101]
  | .number n => n.text
  | .string s => quote s

mutual

/-- `JSON.stringify(value)`. -/
def stringify : Json → List ℕ
  | .leaf a => scalarText a
  | .array items => 91 :: itemsText true items
  | .object fields => 123 :: fieldsText true fields

/-- The items of an array and its closing bracket; `first` says that no item came before. -/
def itemsText : Bool → List Json → List ℕ
  | _, [] => [93]
  | first, x :: items => (if first then [] else [44]) ++ (stringify x ++ itemsText false items)

/-- The fields of an object and its closing brace. -/
def fieldsText : Bool → List (List ℕ × Json) → List ℕ
  | _, [] => [125]
  | first, (k, x) :: fields =>
    (if first then [] else [44]) ++ (quote k ++ 58 :: (stringify x ++ fieldsText false fields))

end

/-- What a value begins with. -/
def BeginsWith (c : ℕ) : Json → Prop
  | .leaf .null => c = 110
  | .leaf (.bool true) => c = 116
  | .leaf (.bool false) => c = 102
  | .leaf (.number _) => c = 45 ∨ 48 ≤ c ∧ c ≤ 57
  | .leaf (.string _) => c = 34
  | .array _ => c = 91
  | .object _ => c = 123

/-- A unit of the text of a number. -/
def isNumberUnit (c : ℕ) : Bool := isDecimalDigit c || c = 43 || c = 45 || c = 46 || c = 101

/-- What may follow a number: the end, or something that cannot belong to it. -/
def Apart (r : List ℕ) : Prop := ∀ c ∈ r.head?, isNumberUnit c = false

theorem isNumberUnit_of_mem_text {n : Decimal} (h : c ∈ n.text) : isNumberUnit c = true := by
  have hunit : isDecimalDigit c = true ∨ c = 43 ∨ c = 45 ∨ c = 46 ∨ c = 101 := by
    rcases n with _ | ⟨negative, m, k, hm⟩
    · rw [List.mem_singleton.mp h]
      exact .inl rfl
    · rcases List.mem_append.mp h with h | h
      · split at h
        · rw [List.mem_singleton.mp h]
          omega
        · exact absurd h List.not_mem_nil
      · exact Decimal.positiveText_units h
  simp only [isNumberUnit, Bool.or_eq_true, decide_eq_true_eq]
  tauto

theorem numberText_head (n : Decimal) : ∃ c t, n.text = c :: t ∧ (c = 45 ∨ 48 ≤ c ∧ c ≤ 57) := by
  rcases n with _ | ⟨_ | _, m, k, hm⟩
  · exact ⟨48, [], rfl, by omega⟩
  · rcases Decimal.positiveText_head m k with ⟨c, t, ht, hc⟩
    refine ⟨c, t, ht, .inr ?_⟩
    simpa [isDecimalDigit] using hc
  · exact ⟨45, _, rfl, .inl rfl⟩

theorem stringify_head (v : Json) : ∃ c t, stringify v = c :: t ∧ BeginsWith c v := by
  rcases v with (_ | b | n | s) | items | fields
  · exact ⟨110, _, rfl, rfl⟩
  · rcases b
    · exact ⟨102, _, rfl, rfl⟩
    · exact ⟨116, _, rfl, rfl⟩
  · exact numberText_head n
  · exact ⟨34, _, rfl, rfl⟩
  · exact ⟨91, _, rfl, rfl⟩
  · exact ⟨123, _, rfl, rfl⟩

/-- A number ends where its text says, where what follows cannot belong to it. -/
theorem numberText_append_inj {n n' : Decimal} (hr : Apart r) (hr' : Apart r')
    (h : n.text ++ r = n'.text ++ r') : n = n' ∧ r = r' := by
  have htake : ∀ (n : Decimal) (r : List ℕ), Apart r →
      (n.text ++ r).takeWhile isNumberUnit = n.text := by
    intro n r hr
    rw [List.takeWhile_append_of_pos fun c hc => isNumberUnit_of_mem_text hc]
    rcases r with _ | ⟨c, r⟩
    · simp
    · rw [List.takeWhile_cons_of_neg, List.append_nil]
      rw [hr c rfl]
      exact Bool.false_ne_true
  have htext : n.text = n'.text := by rw [← htake n r hr, h, htake n' r' hr']
  rw [htext] at h
  exact ⟨Decimal.text_injective htext, List.append_cancel_left h⟩

theorem apart_itemsText (items : List Json) : Apart (itemsText false items ++ r) := by
  intro c hc
  rcases items with _ | ⟨x, items⟩
  · rw [← Option.some.inj hc]
    rfl
  · rw [← Option.some.inj hc]
    rfl

theorem apart_fieldsText (fields : List (List ℕ × Json)) :
    Apart (fieldsText false fields ++ r) := by
  intro c hc
  rcases fields with _ | ⟨⟨k, x⟩, fields⟩
  · rw [← Option.some.inj hc]
    rfl
  · rw [← Option.some.inj hc]
    rfl

/-- A value that can be told from any other by its text, whatever comes after it. -/
def Readable (v : Json) : Prop :=
  ∀ w r r', Apart r → Apart r' → stringify v ++ r = stringify w ++ r' → v = w ∧ r = r'

theorem readable_leaf (a : JsonScalar) : Readable (.leaf a) := by
  intro w r r' hr hr' h
  -- the first unit tells the kind of the value
  rcases stringify_head (.leaf a) with ⟨c, t, ht, hc⟩
  rcases stringify_head w with ⟨c', t', ht', hc'⟩
  have hhead : c = c' := by
    rw [ht, ht'] at h
    exact (List.cons.inj h).1
  subst hhead
  rcases a with _ | (_ | _) | n | s <;>
    rcases w with (_ | (_ | _) | n' | s') | items | fields <;>
    simp only [BeginsWith] at hc hc' <;> try omega
  · exact ⟨rfl, List.append_cancel_left h⟩
  · exact ⟨rfl, List.append_cancel_left h⟩
  · exact ⟨rfl, List.append_cancel_left h⟩
  · rcases numberText_append_inj hr hr' h with ⟨rfl, rfl⟩
    exact ⟨rfl, rfl⟩
  · rcases quote_append_inj h with ⟨rfl, rfl⟩
    exact ⟨rfl, rfl⟩

theorem itemsText_cons_ne (first : Bool) (x : Json) (items : List Json) :
    itemsText first (x :: items) ++ r ≠ 93 :: r' := by
  intro h
  rcases first
  · exact absurd (List.cons.inj h).1 (by omega)
  rcases stringify_head x with ⟨c, t, ht, hc⟩
  have hne : c ≠ 93 := by
    rcases x with (_ | (_ | _) | _ | _) | _ | _ <;> simp only [BeginsWith] at hc <;> omega
  refine hne ?_
  rw [itemsText, ht] at h
  exact (List.cons.inj h).1

/-- The items of an array can be read off their text. -/
theorem itemsText_append_inj {items : List Json} (hitems : ∀ v ∈ items, Readable v) (first : Bool)
    (items' : List Json) (h : itemsText first items ++ r = itemsText first items' ++ r') :
    items = items' ∧ r = r' := by
  induction items generalizing first items' with
  | nil =>
    rcases items' with _ | ⟨y, items'⟩
    · exact ⟨rfl, (List.cons.inj h).2⟩
    · exact absurd h.symm (itemsText_cons_ne first y items')
  | cons x items ih =>
    rcases items' with _ | ⟨y, items'⟩
    · exact absurd h (itemsText_cons_ne first x items)
    · rw [itemsText, itemsText, List.append_assoc, List.append_assoc, List.append_assoc,
        List.append_assoc] at h
      rcases hitems x List.mem_cons_self y _ _ (apart_itemsText items) (apart_itemsText items')
        (List.append_cancel_left h) with ⟨rfl, hrest⟩
      rcases ih (fun v hv => hitems v (List.mem_cons_of_mem _ hv)) false items' hrest with
        ⟨rfl, rfl⟩
      exact ⟨rfl, rfl⟩

theorem fieldsText_cons_ne (first : Bool) (f : List ℕ × Json) (fields : List (List ℕ × Json)) :
    fieldsText first (f :: fields) ++ r ≠ 125 :: r' := by
  intro h
  rcases first
  · exact absurd (List.cons.inj h).1 (by omega)
  · exact absurd (List.cons.inj h).1 (by omega)

/-- The fields of an object can be read off their text. -/
theorem fieldsText_append_inj {fields : List (List ℕ × Json)}
    (hfields : ∀ f ∈ fields, Readable f.2) (first : Bool) (fields' : List (List ℕ × Json))
    (h : fieldsText first fields ++ r = fieldsText first fields' ++ r') :
    fields = fields' ∧ r = r' := by
  induction fields generalizing first fields' with
  | nil =>
    rcases fields' with _ | ⟨g, fields'⟩
    · exact ⟨rfl, (List.cons.inj h).2⟩
    · exact absurd h.symm (fieldsText_cons_ne first g fields')
  | cons f fields ih =>
    rcases fields' with _ | ⟨g, fields'⟩
    · exact absurd h (fieldsText_cons_ne first f fields)
    · rcases f with ⟨k, x⟩
      rcases g with ⟨k', y⟩
      simp only [fieldsText, List.append_assoc, List.cons_append] at h
      have hkey : quote k ++ (58 :: (stringify x ++ (fieldsText false fields ++ r))) =
          quote k' ++ (58 :: (stringify y ++ (fieldsText false fields' ++ r'))) :=
        List.append_cancel_left h
      rcases quote_append_inj hkey with ⟨rfl, hvalue⟩
      rcases hfields (k, x) List.mem_cons_self y _ _ (apart_fieldsText fields)
        (apart_fieldsText fields') (List.cons.inj hvalue).2 with ⟨rfl, hrest⟩
      rcases ih (fun f hf => hfields f (List.mem_cons_of_mem _ hf)) false fields' hrest with
        ⟨rfl, rfl⟩
      exact ⟨rfl, rfl⟩

/-- **Any value can be read off its text**, whatever comes after it. -/
theorem stringify_append_inj (v : Json) : Readable v := by
  induction v using JsonTree.induct with
  | leaf a => exact readable_leaf a
  | array items ih =>
    intro w r r' hr hr' h
    rcases stringify_head w with ⟨c, t, ht, hc⟩
    have hhead : c = 91 := by
      rw [ht] at h
      exact (List.cons.inj h).1.symm
    subst hhead
    rcases w with (_ | (_ | _) | _ | _) | items' | fields' <;> simp only [BeginsWith] at hc <;>
      try omega
    rcases itemsText_append_inj ih true items' (List.cons.inj h).2 with ⟨rfl, rfl⟩
    exact ⟨rfl, rfl⟩
  | object fields ih =>
    intro w r r' hr hr' h
    rcases stringify_head w with ⟨c, t, ht, hc⟩
    have hhead : c = 123 := by
      rw [ht] at h
      exact (List.cons.inj h).1.symm
    subst hhead
    rcases w with (_ | (_ | _) | _ | _) | items' | fields' <;> simp only [BeginsWith] at hc <;>
      try omega
    rcases fieldsText_append_inj ih true fields' (List.cons.inj h).2 with ⟨rfl, rfl⟩
    exact ⟨rfl, rfl⟩

/-- **Values with one text are one value.** -/
theorem stringify_injective : Function.Injective stringify := by
  intro v w h
  have hnil : Apart [] := by
    intro c hc
    exact absurd hc (by simp)
  refine (stringify_append_inj v w [] [] hnil hnil ?_).1
  rw [h]

end ResearchWorkbench
