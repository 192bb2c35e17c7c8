import DockerfileLint.Json.Reader
import DockerfileLint.Proofs.Json.Lexing

/-!
# Reading a JSON document

The reader rebuilds a document from its tokens, whatever is still open and whatever follows
(`State.run_tokens`). It reads no other tokens as that document: what it holds at any time are the
tokens that it has read (`State.tokens_run`). So it reads characters as a document exactly when they
are a JSON text of it (`ofChars?_eq_some_iff`). What the writer makes of a document is such a text
(`isJsonText_compact`, `isJsonText_pretty`), so that reading undoes writing.
-/

namespace DockerfileLint.Json

/-! ### From tokens to the document -/

namespace State

@[simp] theorem run_nil (s : State) : run s [] = some s := rfl

/-- No value starts with a closing bracket, so the first item of an array is read as any other
value. -/
theorem run_firstItem_tokens (v : Json) (stack : List Frame) (rest : List Token) :
    run (.firstItem stack) (v.tokens ++ rest) =
      run (.value (.array [] :: stack)) (v.tokens ++ rest) := by
  cases v with
  | null | bool | integer | decimal | text => rfl
  | array items => cases items <;> rfl
  | object members => cases members <;> rfl

mutual

/-- The tokens of a value take the reader from expecting the value to having it. -/
theorem run_tokens : ∀ (v : Json) (stack : List Frame) (rest : List Token),
    run (.value stack) (v.tokens ++ rest) = run (.done stack v) rest
  | .null, _, _ | .bool _, _, _ | .integer _, _, _ | .decimal _, _, _ | .text _, _, _ => rfl
  | .array [], _, _ | .object [], _, _ => rfl
  | .array (v :: vs), stack, rest => by
    show run (.firstItem stack) ((v.tokens ++ (itemTokens vs ++ [.closeArray])) ++ rest) = _
    rw [List.append_assoc, List.append_assoc, run_firstItem_tokens, run_tokens v]
    exact run_itemTokens vs [] v stack rest
  | .object ((k, v) :: ms), stack, rest => by
    show run (.value (.object [] k :: stack))
      ((v.tokens ++ (memberTokens ms ++ [.closeObject])) ++ rest) = _
    rw [List.append_assoc, List.append_assoc, run_tokens v]
    exact run_memberTokens ms [] k v stack rest

/-- The further items of an array, with those before them in reverse. -/
theorem run_itemTokens :
    ∀ (vs items : List Json) (v : Json) (stack : List Frame) (rest : List Token),
    run (.done (.array items :: stack) v) (itemTokens vs ++ (.closeArray :: rest)) =
      run (.done stack (.array (items.reverse ++ v :: vs))) rest
  | [], items, v, stack, rest => by
    show run (.done stack (.array (v :: items).reverse)) rest = _
    rw [List.reverse_cons]
  | w :: ws, items, v, stack, rest => by
    show run (.value (.array (v :: items) :: stack))
      ((w.tokens ++ itemTokens ws) ++ (.closeArray :: rest)) = _
    rw [List.append_assoc, run_tokens w, run_itemTokens ws (v :: items) w, List.reverse_cons,
      List.append_assoc]
    rfl

/-- The further members of an object, with those before them in reverse. -/
theorem run_memberTokens :
    ∀ (ms members : List (Option String × Json)) (k : Option String) (v : Json)
    (stack : List Frame) (rest : List Token),
    run (.done (.object members k :: stack) v) (memberTokens ms ++ (.closeObject :: rest)) =
      run (.done stack (.object (members.reverse ++ (k, v) :: ms))) rest
  | [], members, k, v, stack, rest => by
    show run (.done stack (.object ((k, v) :: members).reverse)) rest = _
    rw [List.reverse_cons]
  | (l, w) :: ms, members, k, v, stack, rest => by
    show run (.value (.object ((k, v) :: members) l :: stack))
      ((w.tokens ++ memberTokens ms) ++ (.closeObject :: rest)) = _
    rw [List.append_assoc, run_tokens w, run_memberTokens ms ((k, v) :: members) l w,
      List.reverse_cons, List.append_assoc]
    rfl

end

end State

theorem run_value_tokens (v : Json) : State.run (.value []) v.tokens = some (.done [] v) := by
  have hrun := State.run_tokens v [] []
  rwa [List.append_nil, State.run_nil] at hrun

/-- The tokens of a document are read as the document. -/
theorem ofTokens?_tokens (v : Json) : ofTokens? v.tokens = some v := by
  rw [ofTokens?, run_value_tokens]

/-! ### From tokens back to the document -/

/-- The items of an array with the comma after each. -/
def itemsBefore (items : List Json) : List Token := items.flatMap fun v => v.tokens ++ [.comma]

/-- The members of an object with the comma after each. -/
def membersBefore (members : List (Option String × Json)) : List Token :=
  members.flatMap fun m => .text m.1 :: .colon :: (m.2.tokens ++ [.comma])

/-- The tokens of an open array or object up to the value that is being read. -/
def Frame.tokens : Frame → List Token
  | .array items => .openArray :: itemsBefore items.reverse
  | .object members k => .openObject :: (membersBefore members.reverse ++ [.text k, .colon])

/-- The tokens of all that is open, the outermost first. -/
def framesTokens (stack : List Frame) : List Token := stack.reverse.flatMap Frame.tokens

/-- The tokens that were read on the way to a state. -/
def State.tokens : State → List Token
  | .value stack => framesTokens stack
  | .firstItem stack => framesTokens stack ++ [.openArray]
  | .firstKey stack => framesTokens stack ++ [.openObject]
  | .key stack members => framesTokens stack ++ .openObject :: membersBefore members.reverse
  | .colon stack members k =>
    framesTokens stack ++ .openObject :: (membersBefore members.reverse ++ [.text k])
  | .done stack v => framesTokens stack ++ v.tokens

theorem framesTokens_cons (frame : Frame) (stack : List Frame) :
    framesTokens (frame :: stack) = framesTokens stack ++ frame.tokens := by
  simp [framesTokens]

theorem itemsBefore_append (items : List Json) (v : Json) :
    itemsBefore (items ++ [v]) = itemsBefore items ++ (v.tokens ++ [.comma]) := by
  simp [itemsBefore]

theorem membersBefore_append (members : List (Option String × Json)) (m : Option String × Json) :
    membersBefore (members ++ [m]) =
      membersBefore members ++ .text m.1 :: .colon :: (m.2.tokens ++ [.comma]) := by
  simp [membersBefore]

theorem tokens_append_itemTokens (v : Json) (items : List Json) (w : Json) :
    v.tokens ++ itemTokens (items ++ [w]) = itemsBefore (v :: items) ++ w.tokens := by
  induction items generalizing v with
  | nil => simp [itemTokens, itemsBefore]
  | cons u items ih =>
    rw [List.cons_append, itemTokens, ih]
    simp [itemsBefore]

theorem tokens_array_append (items : List Json) (v : Json) :
    (Json.array (items ++ [v])).tokens =
      .openArray :: (itemsBefore items ++ (v.tokens ++ [.closeArray])) := by
  cases items with
  | nil => simp [Json.tokens, itemTokens, itemsBefore]
  | cons w items =>
    rw [List.cons_append, Json.tokens, ← List.append_assoc, tokens_append_itemTokens,
      List.append_assoc]

theorem tokens_append_memberTokens (v : Json) (members : List (Option String × Json))
    (k l : Option String) (w : Json) :
    .text k :: .colon :: (v.tokens ++ memberTokens (members ++ [(l, w)])) =
      membersBefore ((k, v) :: members) ++ .text l :: .colon :: w.tokens := by
  induction members generalizing k v with
  | nil => simp [memberTokens, membersBefore]
  | cons m members ih =>
    rw [List.cons_append, memberTokens, ih]
    simp [membersBefore]

theorem tokens_object_append (members : List (Option String × Json)) (k : Option String)
    (v : Json) :
    (Json.object (members ++ [(k, v)])).tokens =
      .openObject :: (membersBefore members ++
        .text k :: .colon :: (v.tokens ++ [.closeObject])) := by
  cases members with
  | nil => simp [Json.tokens, memberTokens, membersBefore]
  | cons m members =>
    have hmembers :=
      congrArg (· ++ [Token.closeObject]) (tokens_append_memberTokens m.2 members m.1 k v)
    simp only [List.append_assoc, List.cons_append] at hmembers
    rw [List.cons_append, Json.tokens, hmembers]

namespace State

theorem tokens_start {stack : List Frame} {t : Token} {s : State} (h : start stack t = some s) :
    s.tokens = framesTokens stack ++ [t] := by
  unfold start at h
  split at h <;> cases h <;> rfl

/-- A step reads the one token. -/
theorem tokens_step {s s' : State} {t : Token} (h : s.step t = some s') :
    s'.tokens = s.tokens ++ [t] := by
  unfold step at h
  split at h
  case h_1 stack t => exact tokens_start h
  -- an array without items, and the first item of one
  case h_2 stack =>
    cases h
    simp [State.tokens, Json.tokens]
  case h_3 stack t _ =>
    rw [tokens_start h, framesTokens_cons]
    rfl
  -- an object without members, a key and the colon after it
  case h_4 stack =>
    cases h
    simp [State.tokens, Json.tokens]
  case h_5 stack k =>
    cases h
    simp [State.tokens, membersBefore]
  case h_6 stack members k =>
    cases h
    simp [State.tokens]
  case h_7 stack members k =>
    cases h
    simp [State.tokens, framesTokens_cons, Frame.tokens]
  -- what follows a complete value: a comma, or the bracket that closes
  case h_8 items stack v =>
    cases h
    simp [State.tokens, framesTokens_cons, Frame.tokens, itemsBefore_append]
  case h_9 items stack v =>
    cases h
    simp [State.tokens, framesTokens_cons, Frame.tokens, tokens_array_append]
  case h_10 members k stack v =>
    cases h
    simp [State.tokens, framesTokens_cons, Frame.tokens, membersBefore_append]
  case h_11 members k stack v =>
    cases h
    simp [State.tokens, framesTokens_cons, Frame.tokens, tokens_object_append]
  case h_12 => cases h

theorem run_cons (s : State) (t : Token) (ts : List Token) :
    run s (t :: ts) = (step s t).bind fun s => run s ts :=
  List.foldlM_cons ..

theorem tokens_run {s s' : State} {ts : List Token} (h : run s ts = some s') :
    s'.tokens = s.tokens ++ ts := by
  induction ts generalizing s with
  | nil =>
    cases h
    rw [List.append_nil]
  | cons t ts ih =>
    rw [run_cons] at h
    obtain ⟨s₁, hstep, hrun⟩ := Option.bind_eq_some_iff.1 h
    rw [ih hrun, tokens_step hstep, List.append_assoc, List.singleton_append]

/-- After a number the reader has a complete value. -/
theorem exists_done_of_step {s s' : State} {t : Token} (ht : t.isNumber = true)
    (h : s.step t = some s') :
    ∃ stack v, s' = .done stack v := by
  cases t with
  | integer | decimal =>
    cases s with
    | value | firstItem =>
      cases h
      exact ⟨_, _, rfl⟩
    | firstKey | key | colon => cases h
    | done stack v => rcases stack with _ | ⟨_ | _, stack⟩ <;> cases h
  | openArray | closeArray | openObject | closeObject | comma | colon | null | bool | text =>
    cases ht

/-- After a complete value comes punctuation. -/
theorem isPunctuation_of_step_done {stack : List Frame} {v : Json} {t : Token} {s : State}
    (h : step (.done stack v) t = some s) : t.isPunctuation = true := by
  cases t with
  | openArray | closeArray | openObject | closeObject | comma | colon => rfl
  | null | bool | integer | decimal | text => rcases stack with _ | ⟨_ | _, stack⟩ <;> cases h

/-- What the reader takes is told apart by punctuation. -/
theorem apart_of_run {s s' : State} {ts : List Token} (h : run s ts = some s') : Apart ts := by
  induction ts generalizing s with
  | nil => trivial
  | cons t ts ih =>
    rw [run_cons] at h
    obtain ⟨s₁, hstep, hrun⟩ := Option.bind_eq_some_iff.1 h
    refine ⟨fun ht u hu => ?_, ih hrun⟩
    obtain ⟨stack, v, rfl⟩ := exists_done_of_step ht hstep
    obtain ⟨us, rfl⟩ := List.head?_eq_some_iff.1 hu
    rw [run_cons] at hrun
    obtain ⟨s₂, hnext, -⟩ := Option.bind_eq_some_iff.1 hrun
    exact isPunctuation_of_step_done hnext

end State

theorem eq_tokens_of_ofTokens? {ts : List Token} {v : Json} (h : ofTokens? ts = some v) :
    ts = v.tokens := by
  unfold ofTokens? at h
  split at h
  · rename_i hrun
    cases h
    exact (State.tokens_run hrun).symm
  · cases h

/-! ### Documents -/

/-- The characters are a JSON text of the document: its tokens, each in one of its forms, with
nothing but blanks before, between and after them. -/
def IsJsonText (v : Json) (cs : List Char) : Prop := Written v.tokens cs

/-- The reader reads characters as a document exactly when they are a text of it. -/
theorem ofChars?_eq_some_iff {cs : List Char} {v : Json} :
    ofChars? cs = some v ↔ v.IsJsonText cs := by
  rw [ofChars?, Option.bind_eq_some_iff]
  constructor
  · rintro ⟨ts, hlex, hts⟩
    rw [IsJsonText, ← eq_tokens_of_ofTokens? hts]
    exact written_of_lex hlex
  · intro h
    exact ⟨v.tokens, lex_of_written h (State.apart_of_run (run_value_tokens v)), ofTokens?_tokens v⟩

/-! ### Reading undoes writing -/

/-- A document whose numbers are all integers. -/
inductive Exact : Json → Prop
  | null : Exact .null
  | bool (b : Bool) : Exact (.bool b)
  | integer (n : Int) : Exact (.integer n)
  | text (content : Option String) : Exact (.text content)
  | array {items : List Json} (h : ∀ v ∈ items, Exact v) : Exact (.array items)
  | object {members : List (Option String × Json)} (h : ∀ m ∈ members, Exact m.2) :
      Exact (.object members)

theorem Exact.isDecimal_of_mem_tokens {v : Json} (h : v.Exact) :
    ∀ t ∈ v.tokens, t.isDecimal = false := by
  induction h with
  | null | bool | integer | text => simp [Json.tokens, Token.isDecimal]
  | @array items _ ih =>
    rcases List.eq_nil_or_concat' items with rfl | ⟨init, v, rfl⟩
    · simp [Json.tokens, Token.isDecimal]
    · rw [tokens_array_append]
      intro t ht
      simp only [itemsBefore, List.mem_cons, List.mem_append, List.mem_flatMap, List.not_mem_nil,
        or_false] at ht
      rcases ht with rfl | ⟨w, hw, ht | rfl⟩ | ht | rfl
      · rfl
      · exact ih w (by simp [hw]) t ht
      · rfl
      · exact ih v (by simp) t ht
      · rfl
  | @object members _ ih =>
    rcases List.eq_nil_or_concat' members with rfl | ⟨init, ⟨k, v⟩, rfl⟩
    · simp [Json.tokens, Token.isDecimal]
    · rw [tokens_object_append]
      intro t ht
      simp only [membersBefore, List.mem_cons, List.mem_append, List.mem_flatMap, List.not_mem_nil,
        or_false] at ht
      rcases ht with rfl | ⟨m, hm, rfl | rfl | ht | rfl⟩ | rfl | rfl | ht | rfl
      · rfl
      · rfl
      · rfl
      · exact ih m (by simp [hm]) t ht
      · rfl
      · rfl
      · rfl
      · exact ih (k, v) (by simp) t ht
      · rfl

theorem isJsonText_compact {v : Json} (h : v.Exact) : v.IsJsonText v.compact :=
  written_flatMap_spell h.isDecimal_of_mem_tokens

theorem isJsonText_pretty {v : Json} (h : v.Exact) : v.IsJsonText v.pretty :=
  written_layout 0 h.isDecimal_of_mem_tokens

/-- A document is read back from any of its texts. -/
theorem parse?_of_isJsonText {v : Json} {cs : List Char} (h : v.IsJsonText cs) :
    parse? (String.ofList cs) = some v := by
  rw [parse?, String.toList_ofList, ofChars?_eq_some_iff]
  exact h

theorem parse?_compact {v : Json} (h : v.Exact) : parse? (String.ofList v.compact) = some v :=
  parse?_of_isJsonText (isJsonText_compact h)

theorem parse?_pretty {v : Json} (h : v.Exact) : parse? (String.ofList v.pretty) = some v :=
  parse?_of_isJsonText (isJsonText_pretty h)

end DockerfileLint.Json
