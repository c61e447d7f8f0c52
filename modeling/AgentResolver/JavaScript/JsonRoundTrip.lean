import AgentResolver.JavaScript.JsonTokens

/-!
# Reading a printed value

`JSON.parse` undoes `JSON.stringify` up to what the text does not show: infinities are written as
`null`, and the properties are in the order of enumeration (`parse_stringify`). Whatever text is
parsed, the value is one of the language (`parse_json_language`).
-/

namespace JavaScript

open Interaction (runEvents run_events_invariant all_steps_of_forall)

mutual

/-- What the text of a value shows. -/
def JsonValue.shown : JsonValue → JsonValue
  | .null => .null
  | .boolean value => .boolean value
  | .number (.finite value) => .number (.finite value)
  | .number (.infinite _) => .null
  | .string value => .string value
  | .array items => .array (shownItems items)
  | .object members => .object (enumerate (shownMembers members))

def shownItems : List JsonValue → List JsonValue
  | [] => []
  | item :: rest => item.shown :: shownItems rest

def shownMembers : List (JSString × JsonValue) → Properties JsonValue
  | [] => []
  | (key, value) :: rest => (key, value.shown) :: shownMembers rest

end

theorem shown_items_eq (items : List JsonValue) : shownItems items = items.map JsonValue.shown := by
  induction items with
  | nil => rw [shownItems, List.map_nil]
  | cons item rest ih => rw [shownItems, ih, List.map_cons]

theorem shown_members_eq (members : Properties JsonValue) :
    shownMembers members = members.map fun member => (member.1, member.2.shown) := by
  induction members with
  | nil => rw [shownMembers, List.map_nil]
  | cons member rest ih => rw [shownMembers, ih, List.map_cons]

/-! ## Keys -/

theorem enumerate_perm {α : Type} (members : Properties α) : (enumerate members).Perm members := by
  have hparts := List.filter_append_perm (fun member => (arrayIndex member.1).isSome) members
  refine List.Perm.trans ?_ hparts
  refine (List.perm_insertionSort _ _).append (List.Perm.of_eq (List.filter_congr ?_))
  intro member _
  cases arrayIndex member.1 <;> rfl

/-- Properties that are in the order of enumeration stay in it. -/
theorem enumerate_ordered {α : Type} {indexed others : Properties α}
    (hsorted : indexed.Pairwise fun first second =>
      (arrayIndex first.1).getD 0 ≤ (arrayIndex second.1).getD 0)
    (hindexed : ∀ member ∈ indexed, (arrayIndex member.1).isSome = true)
    (hothers : ∀ member ∈ others, (arrayIndex member.1).isNone = true) :
    enumerate (indexed ++ others) = indexed ++ others := by
  have hnone : ∀ member ∈ others, ¬ (arrayIndex member.1).isSome = true := by
    intro member hmember
    rw [Option.isNone_iff_eq_none.mp (hothers member hmember)]
    exact Bool.false_ne_true
  have hsome : ∀ member ∈ indexed, ¬ (arrayIndex member.1).isNone = true := by
    intro member hmember
    rw [← Option.not_isSome, hindexed member hmember]
    exact Bool.false_ne_true
  unfold enumerate
  rw [List.filter_append, List.filter_append, List.filter_eq_self.mpr hindexed,
    List.filter_eq_self.mpr hothers, List.filter_eq_nil_iff.mpr hnone,
    List.filter_eq_nil_iff.mpr hsome, List.append_nil, List.nil_append, hsorted.insertionSort_eq]

/-- Without a key that is an array index the order is that of insertion. -/
theorem enumerate_named {α : Type} {members : Properties α}
    (h : ∀ member ∈ members, arrayIndex member.1 = none) : enumerate members = members :=
  enumerate_ordered List.Pairwise.nil (fun _ hmember => absurd hmember List.not_mem_nil)
    fun member hmember => Option.isNone_iff_eq_none.mpr (h member hmember)

theorem enumerate_enumerate {α : Type} (members : Properties α) :
    enumerate (enumerate members) = enumerate members := by
  have htotal : Std.Total fun first second : JSString × α =>
      (arrayIndex first.1).getD 0 ≤ (arrayIndex second.1).getD 0 :=
    ⟨fun _ _ => Nat.le_total _ _⟩
  have htrans : IsTrans (JSString × α) fun first second =>
      (arrayIndex first.1).getD 0 ≤ (arrayIndex second.1).getD 0 :=
    ⟨fun _ _ _ => Nat.le_trans⟩
  exact enumerate_ordered (List.pairwise_insertionSort _ _)
    (fun member hmember => (List.mem_filter.mp ((List.mem_insertionSort _).mp hmember)).2)
    fun member hmember => (List.mem_filter.mp hmember).2

/-- A property that reads is one of the object. -/
theorem mem_of_get {α : Type} {object : Properties α} {key : JSString} {value : α}
    (h : getProperty object key = some value) : (key, value) ∈ object := by
  induction object with
  | nil => cases h
  | cons member rest ih =>
      obtain ⟨name, other⟩ := member
      rw [getProperty] at h
      split_ifs at h with hname
      · rw [hname, Option.some.inj h]
        exact List.mem_cons_self
      · exact List.mem_cons_of_mem _ (ih h)

/-- Without a key that is there twice, every property reads as its value. -/
theorem get_of_mem {α : Type} {object : Properties α} (hdistinct : (object.map Prod.fst).Nodup)
    {key : JSString} {value : α} (h : (key, value) ∈ object) :
    getProperty object key = some value := by
  induction object with
  | nil => cases h
  | cons member rest ih =>
      obtain ⟨name, other⟩ := member
      obtain ⟨hname, hrest⟩ := List.nodup_cons.mp hdistinct
      rw [getProperty]
      rcases List.mem_cons.mp h with h | h
      · obtain ⟨rfl, rfl⟩ := Prod.mk.inj h
        exact if_pos rfl
      · have hne : name ≠ key := by
          rintro rfl
          exact hname (List.mem_map.mpr ⟨_, h, rfl⟩)
        rw [if_neg hne, ih hrest h]

/-- Properties read the same in any order. -/
theorem get_perm {α : Type} {object other : Properties α} (h : object.Perm other)
    (hdistinct : (object.map Prod.fst).Nodup) (key : JSString) :
    getProperty object key = getProperty other key := by
  have hother := (h.map Prod.fst).nodup_iff.mp hdistinct
  refine Option.ext fun value => ?_
  constructor
  · exact fun hvalue => get_of_mem hother (h.subset (mem_of_get hvalue))
  · exact fun hvalue => get_of_mem hdistinct (h.symm.subset (mem_of_get hvalue))

/-- The properties that the text of an object shows. -/
def shownObject (members : Properties JsonValue) : Properties JsonValue :=
  enumerate (members.map fun member => (member.1, member.2.shown))

theorem shown_object_eq (members : Properties JsonValue) :
    (JsonValue.object members).shown = .object (shownObject members) := by
  rw [JsonValue.shown, shown_members_eq, shownObject]

/-- What a text shows of what a text shows. -/
theorem shown_shown (value : JsonValue) : value.shown.shown = value.shown := by
  induction value using json_induction with
  | null | boolean value | string value => rfl
  | number value =>
      cases value with
      | finite value => rfl
      | infinite negative => rfl
  | array items ih =>
      rw [JsonValue.shown, shown_items_eq, JsonValue.shown, shown_items_eq, List.map_map]
      exact congrArg JsonValue.array (List.map_congr_left ih)
  | object members ih =>
      rw [shown_object_eq, shown_object_eq, shownObject, shownObject, enumerate_map,
        enumerate_enumerate, ← enumerate_map, List.map_map]
      exact congrArg (fun members => JsonValue.object (enumerate members))
        (List.map_congr_left fun member hmember => congrArg (Prod.mk member.1) (ih member hmember))

theorem get_shown {members : Properties JsonValue} (hdistinct : (members.map Prod.fst).Nodup)
    (key : JSString) :
    getProperty (shownObject members) key = (getProperty members key).map JsonValue.shown := by
  have hkeys : ((members.map fun member => (member.1, member.2.shown)).map Prod.fst).Nodup := by
    rw [List.map_map]
    exact hdistinct
  rw [shownObject, ← get_perm (enumerate_perm _).symm hkeys, get_map]

/-! ## Values -/

theorem parse_step {state next : ParseState} {token : Token}
    (h : parseToken state token = some next) (rest : List Token) :
    runEvents parseToken state (token :: rest) = runEvents parseToken next rest := by
  rw [runEvents, h]
  rfl

/-- The tokens of a value are read as what it shows, wherever a value may stand. -/
def IsRead (value : JsonValue) : Prop :=
  ∀ stack rest, runEvents parseToken (.value stack) (valueTokens value ++ rest) =
    runEvents parseToken (complete value.shown stack) rest

/-- The items of an array, behind those that have been read. -/
theorem parse_items {items : List JsonValue} (hne : items ≠ []) (h : ∀ item ∈ items, IsRead item)
    (before : List JsonValue) (stack : List Frame) (rest : List Token) :
    runEvents parseToken (.value (.items before :: stack))
        ([Token.mark (unit ',')].intercalate (items.map valueTokens) ++
          .mark (unit ']') :: rest) =
      runEvents parseToken (complete (.array (before ++ items.map JsonValue.shown)) stack)
        rest := by
  induction items generalizing before with
  | nil => exact absurd rfl hne
  | cons item items ih =>
      have hitem := h item List.mem_cons_self
      -- The last item stands before the closing bracket, an earlier one before a comma.
      cases items with
      | nil =>
          show runEvents parseToken _ ((valueTokens item ++ []) ++ _) = _
          rw [List.append_nil, hitem]
          exact parse_step rfl rest
      | cons next items =>
          rw [List.map_cons, List.map_cons, List.intercalate_cons_cons, List.append_assoc,
            List.append_assoc, List.singleton_append, hitem]
          have hrest := ih (List.cons_ne_nil next items)
            (fun other hother => h other (List.mem_cons_of_mem item hother))
            (before ++ [item.shown])
          rw [List.append_assoc] at hrest
          exact (parse_step rfl _).trans hrest

/-- The first token of a value is no closing bracket. -/
theorem first_item (value : JsonValue) (stack : List Frame) (rest : List Token) :
    runEvents parseToken (.firstItem stack) (valueTokens value ++ rest) =
      runEvents parseToken (.value (.items [] :: stack)) (valueTokens value ++ rest) := by
  cases value with
  | null => rfl
  | boolean value => rfl
  | number value =>
      cases value with
      | finite value => rfl
      | infinite negative => rfl
  | string value => rfl
  | array items => rfl
  | object members => rfl

/-- The first part in front of what is behind it. -/
theorem intercalate_first {α : Type} (separator part : List α) (parts : List (List α)) :
    ∃ behind, separator.intercalate (part :: parts) = part ++ behind := by
  cases parts with
  | nil => exact ⟨[], rfl⟩
  | cons next parts => exact ⟨_, List.intercalate_cons_cons.trans (List.append_assoc _ _ _)⟩

theorem read_array {items : List JsonValue} (h : ∀ item ∈ items, IsRead item) :
    IsRead (.array items) := by
  intro stack rest
  rw [valueTokens, bracketTokens, List.cons_append, parse_step rfl, JsonValue.shown,
    items_tokens_eq, shown_items_eq, List.append_assoc, List.singleton_append]
  cases items with
  | nil => exact parse_step rfl rest
  | cons item items =>
      obtain ⟨behind, hbehind⟩ := intercalate_first [Token.mark (unit ',')] (valueTokens item)
        (items.map valueTokens)
      rw [← List.nil_append ((item :: items).map JsonValue.shown),
        ← parse_items (List.cons_ne_nil item items) h [] stack rest, List.map_cons, hbehind,
        List.append_assoc, first_item]

/-- The properties of an object, behind those that have been read. -/
theorem parse_members {members : Properties JsonValue} (hne : members ≠ [])
    (h : ∀ member ∈ members, IsRead member.2) (before : Properties JsonValue)
    (hdistinct : ((before ++ members).map Prod.fst).Nodup) (stack : List Frame)
    (rest : List Token) :
    runEvents parseToken (.nextKey before stack)
        ([Token.mark (unit ',')].intercalate
          (members.map fun member => memberTokens (member.1, valueTokens member.2)) ++
            .mark (unit '\x7d') :: rest) =
      runEvents parseToken (complete (.object (before ++
        members.map fun member => (member.1, member.2.shown))) stack) rest := by
  induction members generalizing before with
  | nil => exact absurd rfl hne
  | cons member members ih =>
      obtain ⟨key, value⟩ := member
      have hvalue := h (key, value) List.mem_cons_self
      -- A key that is new goes to the end.
      have hfresh : setProperty before key value.shown = before ++ [(key, value.shown)] := by
        refine set_property_fresh fun entry hentry heq => ?_
        rw [List.map_append] at hdistinct
        exact (List.nodup_append.mp hdistinct).2.2 entry.1 (List.mem_map_of_mem hentry) key
          (by simp) heq
      have hmember (tail : List Token) :
          runEvents parseToken (.nextKey before stack)
              (memberTokens (key, valueTokens value) ++ tail) =
            runEvents parseToken (.afterMember (before ++ [(key, value.shown)]) stack) tail := by
        rw [memberTokens, List.cons_append, List.cons_append, parse_step rfl, parse_step rfl,
          hvalue, complete, hfresh]
      cases members with
      | nil =>
          show runEvents parseToken _ ((memberTokens (key, valueTokens value) ++ []) ++ _) = _
          rw [List.append_nil, hmember]
          exact parse_step rfl rest
      | cons next members =>
          rw [List.map_cons, List.map_cons, List.intercalate_cons_cons, List.append_assoc,
            List.append_assoc, List.singleton_append, hmember]
          have hrest := ih (List.cons_ne_nil next members)
            (fun other hother => h other (List.mem_cons_of_mem _ hother))
            (before ++ [(key, value.shown)]) (by simpa using hdistinct)
          rw [List.append_assoc] at hrest
          exact (parse_step rfl _).trans hrest

theorem read_object {members : Properties JsonValue} (hdistinct : (members.map Prod.fst).Nodup)
    (h : ∀ member ∈ members, IsRead member.2) : IsRead (.object members) := by
  intro stack rest
  have hperm := enumerate_perm members
  rw [valueTokens, bracketTokens, List.cons_append, parse_step rfl, JsonValue.shown,
    members_tokens_eq, shown_members_eq, enumerate_map, enumerate_map, List.map_map,
    List.append_assoc, List.singleton_append]
  cases hmembers : enumerate members with
  | nil => exact parse_step rfl rest
  | cons member more =>
      have hread := parse_members (List.cons_ne_nil member more)
        (fun other hother => h other (hperm.subset (hmembers ▸ hother))) []
        (by rw [List.nil_append, ← hmembers]; exact (hperm.map Prod.fst).nodup_iff.mpr hdistinct)
        stack rest
      rw [List.nil_append] at hread
      rw [← hread]
      obtain ⟨behind, hbehind⟩ := intercalate_first [Token.mark (unit ',')]
        (memberTokens (member.1, valueTokens member.2))
        (more.map fun member => memberTokens (member.1, valueTokens member.2))
      -- The first key is read where the object could also end.
      show runEvents parseToken (.firstKey stack) ([Token.mark (unit ',')].intercalate
        (memberTokens (member.1, valueTokens member.2) ::
          more.map fun member => memberTokens (member.1, valueTokens member.2)) ++ _) =
        runEvents parseToken (.nextKey [] stack) ([Token.mark (unit ',')].intercalate
          (memberTokens (member.1, valueTokens member.2) ::
            more.map fun member => memberTokens (member.1, valueTokens member.2)) ++ _)
      rw [hbehind]
      rfl

/-- Every value of the language is read back. -/
theorem read_value {value : JsonValue} (h : IsLanguageValue value) : IsRead value := by
  induction value using json_induction with
  | null => exact fun stack rest => parse_step rfl rest
  | boolean value => exact fun stack rest => parse_step rfl rest
  | number value =>
      cases value with
      | finite value => exact fun stack rest => parse_step rfl rest
      | infinite negative => exact fun stack rest => parse_step rfl rest
  | string value => exact fun stack rest => parse_step rfl rest
  | array items ih =>
      obtain ⟨⟩ | ⟨⟩ | ⟨⟩ | ⟨⟩ | ⟨⟩ | hitems := h
      exact read_array fun item hitem => ih item hitem (hitems item hitem)
  | object members ih =>
      obtain ⟨⟩ | ⟨⟩ | ⟨⟩ | ⟨⟩ | ⟨⟩ | ⟨⟩ | ⟨hdistinct, hmembers⟩ := h
      exact read_object hdistinct fun member hmember => ih member hmember (hmembers member hmember)

/-- What was printed is read back, up to what the text does not show. White space may follow. -/
theorem parse_stringify {gap behind : JSString} {value : JsonValue} (h : IsLanguageValue value)
    (hgap : ∀ c ∈ gap, isJsonSpace c = true) (hbehind : ∀ c ∈ behind, isJsonSpace c = true) :
    parseJson (stringify gap value ++ behind) = some value.shown := by
  have hspace : lex .between (behind ++ []) = lex .between [] := lex_space hbehind []
  have hdelimited : IsDelimited (behind ++ []) := delimited_space hbehind fun c hc => by cases hc
  rw [List.append_nil] at hspace hdelimited
  have hlex : lex .between (valueText gap [] value ++ behind) =
      (lex .between behind).map (valueTokens value ++ ·) :=
    lexes_value hgap h (fun c hc => absurd hc List.not_mem_nil) behind hdelimited
  have hread : runEvents parseToken (.value []) (valueTokens value ++ []) =
      some (.done value.shown) := read_value h [] []
  rw [parseJson, stringify, hlex, hspace]
  show (runEvents parseToken (.value []) (valueTokens value ++ []) >>= _) = _
  rw [hread]
  rfl

/-! ## Values that are read -/

/-- A finite number is a double. -/
def IsLanguageNumber (number : Number) : Prop := ∀ value, number = .finite value → IsDouble value

theorem double_language (value : Rat) : IsLanguageNumber (toDouble value) :=
  fun _ h => to_double_is_double h

theorem IsLanguageNumber.negate {number : Number} (h : IsLanguageNumber number) :
    IsLanguageNumber number.negate := by
  intro value hvalue
  cases number with
  | finite other =>
      rw [← Number.finite.inj hvalue]
      exact (h other rfl).neg
  | infinite negative => cases hvalue

theorem IsLanguageNumber.value {number : Number} (h : IsLanguageNumber number) :
    IsLanguageValue (.number number) := by
  cases number with
  | finite value => exact .number (h value rfl)
  | infinite negative => exact .infinite negative

theorem word_language {read : JSString} {value : JsonValue} (h : wordValue read = some value) :
    IsLanguageValue value := by
  unfold wordValue at h
  split_ifs at h
  · cases h
    exact .null
  · cases h
    exact .boolean true
  · cases h
    exact .boolean false
  · obtain ⟨number, hnumber, rfl⟩ := Option.map_eq_some_iff.mp h
    obtain ⟨literal, -, hliteral⟩ := Option.bind_eq_some_iff.mp hnumber
    split_ifs at hliteral
    · cases hliteral
      exact (double_language literal.value).negate.value
    · cases hliteral
      exact (double_language literal.value).value

/-- The words among the tokens are values of the language. -/
def Token.IsLanguage : Token → Prop
  | .word value => IsLanguageValue value
  | .mark _ | .string _ => True

theorem start_token_language {c : CodeUnit} {step : List Token × LexState}
    (h : startToken c = some step) : ∀ token ∈ step.1, token.IsLanguage := by
  unfold startToken at h
  split_ifs at h
  · cases h
    exact fun token htoken => absurd htoken List.not_mem_nil
  · cases h
    exact List.forall_mem_singleton.mpr trivial
  · cases h
    exact fun token htoken => absurd htoken List.not_mem_nil
  · cases h
    exact fun token htoken => absurd htoken List.not_mem_nil

theorem lex_unit_language {state : LexState} {c : CodeUnit} {step : List Token × LexState}
    (h : lexUnit state c = some step) : ∀ token ∈ step.1, token.IsLanguage := by
  have hquiet {next : LexState} (heq : some ([], next) = some step) :
      ∀ token ∈ step.1, token.IsLanguage := by
    cases heq
    exact fun token htoken => absurd htoken List.not_mem_nil
  -- Only the end of a word produces a value, which `word_language` covers.
  cases state with
  | between => exact start_token_language h
  | string read =>
      rw [lexUnit] at h
      split_ifs at h
      · cases h
        exact List.forall_mem_singleton.mpr trivial
      · exact hquiet h
      · exact hquiet h
  | escape read =>
      rw [lexUnit] at h
      split_ifs at h
      · exact hquiet h
      · obtain ⟨escaped, -, heq⟩ := Option.map_eq_some_iff.mp h
        exact hquiet (congrArg some heq)
  | unicode read count value =>
      obtain ⟨digit, -, heq⟩ := Option.map_eq_some_iff.mp h
      split_ifs at heq
      · exact hquiet (congrArg some heq)
      · exact hquiet (congrArg some heq)
  | word read =>
      rw [lexUnit] at h
      split_ifs at h
      · exact hquiet h
      · obtain ⟨value, hvalue, hstart⟩ := Option.bind_eq_some_iff.mp h
        obtain ⟨start, hstep, rfl⟩ := Option.map_eq_some_iff.mp hstart
        exact List.forall_mem_cons.mpr ⟨word_language hvalue, start_token_language hstep⟩

theorem lex_language {state : LexState} {s : JSString} {tokens : List Token}
    (h : lex state s = some tokens) : ∀ token ∈ tokens, token.IsLanguage := by
  induction s generalizing state tokens with
  | nil =>
      cases state with
      | between =>
          cases h
          exact fun token htoken => absurd htoken List.not_mem_nil
      | word read =>
          obtain ⟨value, hvalue, rfl⟩ := Option.map_eq_some_iff.mp h
          exact List.forall_mem_singleton.mpr (word_language hvalue)
      | string read | escape read | unicode read count value => cases h
  | cons c rest ih =>
      rw [lex] at h
      obtain ⟨step, hstep, hmore⟩ := Option.bind_eq_some_iff.mp h
      obtain ⟨more, hrest, rfl⟩ := Option.map_eq_some_iff.mp hmore
      exact List.forall_mem_append.mpr ⟨lex_unit_language hstep, ih hrest⟩

/-! ## Open arrays and objects -/

section

variable {α : Type} {object : Properties α} {key : JSString} {value : α}

theorem mem_set_property {member : JSString × α} (h : member ∈ setProperty object key value) :
    member = (key, value) ∨ member ∈ object := by
  fun_induction setProperty object key value with
  | case1 => exact Or.inl (List.mem_singleton.mp h)
  | case2 old rest key value =>
      rcases List.mem_cons.mp h with h | h
      · exact Or.inl h
      · exact Or.inr (List.mem_cons_of_mem _ h)
  | case3 name old rest key value hne ih =>
      rcases List.mem_cons.mp h with h | h
      · exact Or.inr (h ▸ List.mem_cons_self)
      · exact (ih h).imp_right (List.mem_cons_of_mem _)

/-- Setting a property gives no second one with its key. -/
theorem set_property_distinct (h : (object.map Prod.fst).Nodup) :
    ((setProperty object key value).map Prod.fst).Nodup := by
  fun_induction setProperty object key value with
  | case1 => exact List.nodup_singleton _
  | case2 old rest key value => exact h
  | case3 name old rest key value hne ih =>
      obtain ⟨hname, hrest⟩ := List.nodup_cons.mp h
      refine List.nodup_cons.mpr ⟨fun hmem => ?_, ih hrest⟩
      obtain ⟨member, hmember, heq⟩ := List.mem_map.mp hmem
      rcases mem_set_property hmember with rfl | hold
      · exact hne heq.symm
      · exact hname (heq ▸ List.mem_map_of_mem hold)

end

/-- The properties of an object of the language. -/
structure IsLanguageObject (members : Properties JsonValue) : Prop where
  distinct : (members.map Prod.fst).Nodup
  values : ∀ member ∈ members, IsLanguageValue member.2

theorem IsLanguageObject.set {members : Properties JsonValue} (h : IsLanguageObject members)
    {value : JsonValue} (hvalue : IsLanguageValue value) (key : JSString) :
    IsLanguageObject (setProperty members key value) := by
  refine ⟨set_property_distinct h.distinct, fun member hmember => ?_⟩
  rcases mem_set_property hmember with rfl | hold
  · exact hvalue
  · exact h.values member hold

theorem IsLanguageValue.members {members : Properties JsonValue}
    (h : IsLanguageValue (.object members)) : IsLanguageObject members := by
  obtain ⟨⟩ | ⟨⟩ | ⟨⟩ | ⟨⟩ | ⟨⟩ | ⟨⟩ | ⟨hdistinct, hmembers⟩ := h
  exact ⟨hdistinct, hmembers⟩

theorem IsLanguageObject.value {members : Properties JsonValue} (h : IsLanguageObject members) :
    IsLanguageValue (.object members) := .object h.distinct h.values

theorem IsLanguageObject.get {members : Properties JsonValue} (h : IsLanguageObject members)
    {key : JSString} {value : JsonValue} (hvalue : getProperty members key = some value) :
    IsLanguageValue value := h.values (key, value) (mem_of_get hvalue)

theorem IsLanguageObject.empty : IsLanguageObject [] :=
  ⟨List.nodup_nil, fun _ hmember => absurd hmember List.not_mem_nil⟩

theorem defined_keys (members : Properties (Option JsonValue)) :
    ((definedMembers members).map Prod.fst).Sublist (members.map Prod.fst) := by
  induction members with
  | nil => exact List.Sublist.refl _
  | cons member rest ih =>
      obtain ⟨key, value⟩ := member
      cases value with
      | none => exact ih.cons key
      | some value => exact ih.cons_cons key

/-- An object that is written without a key twice. -/
theorem defined_language {members : Properties (Option JsonValue)}
    (hdistinct : (members.map Prod.fst).Nodup)
    (h : ∀ member ∈ members, ∀ value, member.2 = some value → IsLanguageValue value) :
    IsLanguageObject (definedMembers members) := by
  refine ⟨(defined_keys members).nodup hdistinct, fun member hmember => ?_⟩
  obtain ⟨entry, hentry, hvalue⟩ := List.mem_filterMap.mp hmember
  obtain ⟨value, hsome, rfl⟩ := Option.map_eq_some_iff.mp hvalue
  exact h entry hentry value hsome

/-- What has been read of an open array or object. -/
def Frame.IsLanguage : Frame → Prop
  | .items read => ∀ item ∈ read, IsLanguageValue item
  | .members read _ => IsLanguageObject read

/-- What has been read so far are values of the language. -/
def ParseState.IsLanguage : ParseState → Prop
  | .value stack | .firstItem stack | .firstKey stack => ∀ frame ∈ stack, frame.IsLanguage
  | .afterItem items stack =>
      (∀ item ∈ items, IsLanguageValue item) ∧ ∀ frame ∈ stack, frame.IsLanguage
  | .nextKey members stack | .colon members _ stack | .afterMember members stack =>
      IsLanguageObject members ∧ ∀ frame ∈ stack, frame.IsLanguage
  | .done result => IsLanguageValue result

theorem complete_language {value : JsonValue} (h : IsLanguageValue value) {stack : List Frame}
    (hstack : ∀ frame ∈ stack, frame.IsLanguage) : (complete value stack).IsLanguage := by
  cases stack with
  | nil => exact h
  | cons frame stack =>
      obtain ⟨hframe, hrest⟩ := List.forall_mem_cons.mp hstack
      cases frame with
      | items items =>
          exact ⟨List.forall_mem_append.mpr ⟨hframe, List.forall_mem_singleton.mpr h⟩, hrest⟩
      | members members key => exact ⟨hframe.set h key, hrest⟩

theorem start_value_language {stack : List Frame} (hstack : ∀ frame ∈ stack, frame.IsLanguage)
    {token : Token} (htoken : token.IsLanguage) {next : ParseState}
    (h : startValue stack token = some next) : next.IsLanguage := by
  cases token with
  | mark c =>
      rw [startValue] at h
      split_ifs at h
      · exact Option.some.inj h ▸ hstack
      · exact Option.some.inj h ▸ hstack
  | string s => exact Option.some.inj h ▸ complete_language (.string s) hstack
  | word value => exact Option.some.inj h ▸ complete_language htoken hstack

/-- A token that is read keeps the values of the language. -/
theorem parse_token_language {state next : ParseState} (hstate : state.IsLanguage) {token : Token}
    (htoken : token.IsLanguage) (h : parseToken state token = some next) : next.IsLanguage := by
  cases state with
  | value stack => exact start_value_language hstate htoken h
  -- The bracket may be closed at once, or an item begins under an empty frame.
  | firstItem stack =>
      have hstart : ∀ frame ∈ Frame.items [] :: stack, frame.IsLanguage :=
        List.forall_mem_cons.mpr ⟨fun item hitem => absurd hitem List.not_mem_nil, hstate⟩
      cases token with
      | mark c =>
          rw [parseToken] at h
          split_ifs at h
          · exact Option.some.inj h ▸
              complete_language (.array fun item hitem => absurd hitem List.not_mem_nil) hstate
          · exact start_value_language hstart htoken h
      | string s => exact start_value_language hstart htoken h
      | word value => exact start_value_language hstart htoken h
  | afterItem items stack =>
      cases token with
      | mark c =>
          rw [parseToken] at h
          split_ifs at h
          · exact Option.some.inj h ▸ List.forall_mem_cons.mpr hstate
          · exact Option.some.inj h ▸ complete_language (.array hstate.1) hstate.2
      | string s => cases h
      | word value => cases h
  | firstKey stack =>
      cases token with
      | mark c =>
          rw [parseToken] at h
          split_ifs at h
          exact Option.some.inj h ▸
            complete_language IsLanguageObject.empty.value hstate
      | string s => exact Option.some.inj h ▸ ⟨.empty, hstate⟩
      | word value => cases h
  | nextKey members stack =>
      cases token with
      | string s => exact Option.some.inj h ▸ hstate
      | mark c => cases h
      | word value => cases h
  | colon members key stack =>
      cases token with
      | mark c =>
          rw [parseToken] at h
          split_ifs at h
          exact Option.some.inj h ▸ List.forall_mem_cons.mpr hstate
      | string s => cases h
      | word value => cases h
  | afterMember members stack =>
      cases token with
      | mark c =>
          rw [parseToken] at h
          split_ifs at h
          · exact Option.some.inj h ▸ hstate
          · exact Option.some.inj h ▸
              complete_language hstate.1.value hstate.2
      | string s => cases h
      | word value => cases h
  | done value =>
      cases token with
      | mark c => cases h
      | string s => cases h
      | word other => cases h

/-- What is parsed is a value of the language, whatever the text is. -/
theorem parse_json_language {s : JSString} {value : JsonValue} (h : parseJson s = some value) :
    IsLanguageValue value := by
  obtain ⟨tokens, hlex, hparse⟩ := Option.bind_eq_some_iff.mp h
  obtain ⟨state, hrun, hstate⟩ := Option.bind_eq_some_iff.mp hparse
  have hstart : (ParseState.value []).IsLanguage :=
    fun frame hframe => absurd hframe List.not_mem_nil
  -- The invariant of the parser, over the tokens that the lexer has found.
  have hlanguage : state.IsLanguage :=
    run_events_invariant
      (fun state token next hstate htoken hstep => @parse_token_language state next hstate token
        htoken hstep)
      hstart (all_steps_of_forall (lex_language hlex) _) hrun
  cases state with
  | done other => exact Option.some.inj hstate ▸ hlanguage
  | value | firstItem | afterItem | firstKey | nextKey | colon | afterMember => cases hstate

/-- What a text shows of a value is a value. -/
theorem IsLanguageValue.shown {value : JsonValue} (h : IsLanguageValue value) :
    IsLanguageValue value.shown := by
  have hempty : ∀ c ∈ ([] : JSString), isJsonSpace c = true :=
    fun c hc => absurd hc List.not_mem_nil
  exact parse_json_language (parse_stringify h hempty hempty)

theorem IsLanguageObject.shown {members : Properties JsonValue} (h : IsLanguageObject members) :
    IsLanguageObject (shownObject members) := by
  have hvalue := h.value.shown
  rw [shown_object_eq] at hvalue
  exact hvalue.members

/-- The text of an object is in braces. -/
theorem stringify_object (gap : JSString) (members : Properties JsonValue) :
    ∃ inner, stringify gap (.object members) = unit '\x7b' :: inner ++ [unit '\x7d'] := by
  rw [stringify, valueText, bracketText]
  split
  · exact ⟨[], rfl⟩
  · exact ⟨_, rfl⟩

/-- The `JSON` object of the language, with the errors that it throws for other texts. -/
def languageJson (syntaxError : JSString → JSError) : Json where
  parse s :=
    match parseJson s with
    | some value => .ok value
    | none => .error (syntaxError s)
  stringify := stringify []

variable {syntaxError : JSString → JSError}

theorem language_json_parse {s : JSString} {value : JsonValue}
    (h : (languageJson syntaxError).parse s = .ok value) : IsLanguageValue value := by
  have hparse : parseJson s = some value := by
    unfold languageJson at h
    dsimp only at h
    split at h
    · rename_i other hother
      rw [hother, Except.ok.inj h]
    · cases h
  exact parse_json_language hparse

/-- What the text of a value shows is read back. -/
theorem language_json_shown {value : JsonValue} (h : IsLanguageValue value) :
    (languageJson syntaxError).parse ((languageJson syntaxError).stringify value.shown) =
      .ok value.shown := by
  have hempty : ∀ c ∈ ([] : JSString), isJsonSpace c = true :=
    fun c hc => absurd hc List.not_mem_nil
  have hparse := parse_stringify h.shown hempty hempty
  rw [List.append_nil, shown_shown] at hparse
  unfold languageJson
  dsimp only
  rw [hparse]

end JavaScript
