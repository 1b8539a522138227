import LiveScene.Proofs.Json.Document

/-!
# Values read back

Reading the text of a value by some reader of numbers can change nothing but its doubles: each
becomes the double that the reader makes of its text (`Json.mapReals`). If the reader refuses one of
them there is no value. The text of a legible value is read as this and nothing else
(`ofText?_text`).

Its compact text is the spellings of its tokens, of which no two words follow each other. So each is
read before the next one begins, and a word that is refused stops the reading there
(`Scan.foldlM_spelled`).

A value is read back if the reader makes each of its doubles of the double's own text (`ReadsBack`).
The reader that takes the nearest double reads every legible value back (`readsBack_exact`).
-/

namespace LiveScene.Json

variable {R : Number.Reader} {f : Float → Float}

/-! ## Doubles in a value -/

/-- The double that a token stands for. -/
def Token.real? : Token → Option Float
  | .num (.real x) => some x
  | _ => none

/-- The token with another double, if it stands for one. -/
def Token.mapReal (f : Float → Float) : Token → Token
  | .num (.real x) => .num (.real (f x))
  | t => t

/-- The doubles in a value. -/
def reals (v : Json) : List Float := v.tokens.filterMap Token.real?

mutual

/-- The value with other doubles in their places. -/
def mapReals (f : Float → Float) : Json → Json
  | .null => .null
  | .bool b => .bool b
  | .num (.int n) => .num (.int n)
  | .num (.real x) => .num (.real (f x))
  | .str s => .str s
  | .arr items => .arr (mapItems f items)
  | .obj members => .obj (mapMembers f members)

/-- The items of an array with other doubles in them. -/
def mapItems (f : Float → Float) : List Json → List Json
  | [] => []
  | v :: vs => mapReals f v :: mapItems f vs

/-- The members of an object with other doubles in them. -/
def mapMembers (f : Float → Float) : List (String × Json) → List (String × Json)
  | [] => []
  | (k, v) :: ms => (k, mapReals f v) :: mapMembers f ms

end

theorem mapItems_eq_map (vs : List Json) : mapItems f vs = vs.map (mapReals f) := by
  induction vs with
  | nil => rfl
  | cons v vs ih => rw [mapItems, ih, List.map_cons]

theorem mapMembers_eq_map (ms : List (String × Json)) :
    mapMembers f ms = ms.map (Prod.map id (mapReals f)) := by
  induction ms with
  | nil => rfl
  | cons m ms ih =>
    rw [mapMembers, ih, List.map_cons]
    rfl

@[simp] theorem mapReals_arr (vs : List Json) :
    (arr vs).mapReals f = .arr (vs.map (mapReals f)) := by
  rw [mapReals, mapItems_eq_map]

@[simp] theorem mapReals_obj (ms : List (String × Json)) :
    (obj ms).mapReals f = .obj (ms.map (Prod.map id (mapReals f))) := by
  rw [mapReals, mapMembers_eq_map]

theorem itemTokens_map {vs : List Json}
    (h : ∀ v ∈ vs, (v.mapReals f).tokens = v.tokens.map (Token.mapReal f)) :
    itemTokens (vs.map (mapReals f)) = (itemTokens vs).map (Token.mapReal f) := by
  induction vs with
  | nil => rfl
  | cons v vs ih =>
    obtain ⟨hv, hvs⟩ := List.forall_mem_cons.1 h
    simp only [List.map_cons, itemTokens, List.map_append, hv, ih hvs, Token.mapReal]

theorem memberTokens_map {ms : List (String × Json)}
    (h : ∀ m ∈ ms, (m.2.mapReals f).tokens = m.2.tokens.map (Token.mapReal f)) :
    memberTokens (ms.map (Prod.map id (mapReals f))) = (memberTokens ms).map (Token.mapReal f) := by
  induction ms with
  | nil => rfl
  | cons m ms ih =>
    obtain ⟨k, v⟩ := m
    obtain ⟨hv, hms⟩ := List.forall_mem_cons.1 h
    simp only [List.map_cons, Prod.map, id_eq, memberTokens, List.map_append, hv, ih hms,
      Token.mapReal]

/-- Other doubles stand in the places of their tokens. -/
theorem tokens_mapReals {depth : Nat} {v : Json} (h : Within depth v) :
    (v.mapReals f).tokens = v.tokens.map (Token.mapReal f) := by
  induction h with
  | null => rfl
  | bool b => rfl
  | num n => cases n <;> rfl
  | str s => rfl
  | @arr _ items _ ih =>
    rw [mapReals_arr]
    cases items with
    | nil => rfl
    | cons v vs =>
      obtain ⟨hv, hvs⟩ := List.forall_mem_cons.1 ih
      simp only [List.map_cons, tokens, List.map_append, hv, itemTokens_map hvs, Token.mapReal]
  | @obj _ members _ ih =>
    rw [mapReals_obj]
    cases members with
    | nil => rfl
    | cons m ms =>
      obtain ⟨k, v⟩ := m
      obtain ⟨hv, hms⟩ := List.forall_mem_cons.1 ih
      simp only [List.map_cons, Prod.map, id_eq, tokens, List.map_append, hv, memberTokens_map hms,
        Token.mapReal]

/-- Containers stay as they are. -/
theorem Within.mapReals {depth : Nat} {v : Json} (h : Within depth v) (f : Float → Float) :
    Within depth (v.mapReals f) := by
  induction h with
  | null => exact .null
  | bool b => exact .bool b
  | num n => cases n <;> exact .num _
  | str s => exact .str s
  | arr _ ih =>
    rw [mapReals_arr]
    exact .arr (List.forall_mem_map.2 ih)
  | obj _ ih =>
    rw [mapReals_obj]
    exact .obj (List.forall_mem_map.2 ih)

theorem mem_reals_of_mem_itemTokens {vs : List Json} {x : Float}
    (h : x ∈ (itemTokens vs).filterMap Token.real?) : ∃ v ∈ vs, x ∈ v.reals := by
  induction vs with
  | nil => simp [itemTokens, Token.real?] at h
  | cons v vs ih =>
    have hcomma : Token.comma.real? = none := rfl
    rw [itemTokens, List.filterMap_cons_none hcomma, List.filterMap_append, List.mem_append] at h
    rcases h with h | h
    · exact ⟨v, List.mem_cons_self, h⟩
    · obtain ⟨w, hw, hx⟩ := ih h
      exact ⟨w, List.mem_cons_of_mem _ hw, hx⟩

/-- A double in an array is in one of its items. -/
theorem exists_mem_of_mem_reals_arr {vs : List Json} {x : Float} (h : x ∈ (arr vs).reals) :
    ∃ v ∈ vs, x ∈ v.reals := by
  cases vs with
  | nil => simp [reals, tokens, Token.real?] at h
  | cons v vs =>
    have hopen : Token.openArray.real? = none := rfl
    rw [reals, tokens, List.filterMap_cons_none hopen, List.filterMap_append, List.mem_append] at h
    rcases h with h | h
    · exact ⟨v, List.mem_cons_self, h⟩
    · obtain ⟨w, hw, hx⟩ := mem_reals_of_mem_itemTokens h
      exact ⟨w, List.mem_cons_of_mem _ hw, hx⟩

/-- A value is determined by its tokens. -/
theorem eq_of_tokens_eq {depth : Nat} {v w : Json} (hv : Within depth v) (hw : Within depth w)
    (h : v.tokens = w.tokens) : v = w := by
  have hread := ofTokens?_eq_some_iff.2 ⟨rfl, hv⟩
  rw [h, ofTokens?_eq_some_iff.2 ⟨rfl, hw⟩] at hread
  exact (Option.some.inj hread).symm

/-- Doubles that stay as they are leave the value as it is. -/
theorem mapReals_eq_self {depth : Nat} {v : Json} (h : Within depth v)
    (hf : ∀ x ∈ v.reals, f x = x) : v.mapReals f = v := by
  refine eq_of_tokens_eq (h.mapReals f) h ?_
  rw [tokens_mapReals h]
  refine (List.map_congr_left fun t ht => ?_).trans (List.map_id _)
  unfold Token.mapReal
  split
  · next x =>
    rw [hf x (List.mem_filterMap.2 ⟨_, ht, rfl⟩)]
    rfl
  · rfl

/-! ## What a reader makes of them -/

/-- What a reader makes of the spelling of a token. -/
def Token.reread? (R : Number.Reader) : Token → Option Token
  | .num n => .num <$> n.reread? R
  | t => some t

/-- The reader refuses the text of no double in a value. -/
def Reads (R : Number.Reader) (v : Json) : Prop := ∀ x ∈ v.reals, (R.reread? x).isSome

instance (R : Number.Reader) (v : Json) : Decidable (Reads R v) :=
  inferInstanceAs (Decidable (∀ x ∈ v.reals, (R.reread? x).isSome))

/-- The reader makes each double in a value of that double's own text. -/
def ReadsBack (R : Number.Reader) (v : Json) : Prop := ∀ x ∈ v.reals, R.reread? x = some x

instance (R : Number.Reader) (v : Json) : Decidable (ReadsBack R v) :=
  inferInstanceAs (Decidable (∀ x ∈ v.reals, R.reread? x = some x))

theorem ReadsBack.reads {v : Json} (h : ReadsBack R v) : Reads R v := fun x hx => by
  rw [h x hx]
  rfl

/-- A value of which the doubles are read back stays as it is. -/
theorem ReadsBack.mapReals_reread {depth : Nat} {v : Json} (h : ReadsBack R v)
    (hv : Within depth v) : v.mapReals R.reread = v :=
  mapReals_eq_self hv fun x hx => by rw [Number.Reader.reread, h x hx, Option.getD_some]

/-- Tokens are read as what the reader makes of their doubles, if it refuses none of these. -/
theorem mapM_reread? (ts : List Token) : ts.mapM (Token.reread? R) =
    if ∀ x ∈ ts.filterMap Token.real?, (R.reread? x).isSome then
      some (ts.map (Token.mapReal R.reread)) else none := by
  induction ts with
  | nil => rfl
  | cons t ts ih =>
    have hkept (h : t.real? = none) : t.reread? R = some (t.mapReal R.reread) := by
      cases t with
      | num n =>
        cases n with
        | int n => rfl
        | real x => cases h
      | _ => rfl
    rw [List.mapM_cons, ih]
    cases ht : t.real? with
    | none =>
      rw [hkept ht, List.filterMap_cons_none ht]
      split <;> rfl
    | some x =>
      obtain rfl : t = .num (.real x) := by
        unfold Token.real? at ht
        split at ht <;> cases ht
        rfl
      rw [List.filterMap_cons_some ht]
      cases hx : R.reread? x with
      | none => simp [Token.reread?, Number.reread?, hx]
      | some y =>
        simp only [Token.reread?, Number.reread?, Number.Reader.reread, Token.mapReal, hx,
          List.forall_mem_cons, Option.isSome_some, true_and, List.map_cons, Option.getD_some]
        split <;> rfl

/-! ## Legible tokens -/

/-- A token that is spelled as itself, but for what a reader makes of a double. -/
def Token.Legible : Token → Prop
  | .num n => n.Legible
  | _ => True

theorem legible_itemTokens {vs : List Json} (h : ∀ v ∈ vs, ∀ t ∈ v.tokens, t.Legible) :
    ∀ t ∈ itemTokens vs, t.Legible := by
  induction vs with
  | nil => exact List.forall_mem_singleton.2 trivial
  | cons v vs ih =>
    obtain ⟨hv, hvs⟩ := List.forall_mem_cons.1 h
    exact List.forall_mem_cons.2 ⟨trivial, List.forall_mem_append.2 ⟨hv, ih hvs⟩⟩

theorem legible_memberTokens {ms : List (String × Json)}
    (h : ∀ m ∈ ms, ∀ t ∈ m.2.tokens, t.Legible) : ∀ t ∈ memberTokens ms, t.Legible := by
  induction ms with
  | nil => exact List.forall_mem_singleton.2 trivial
  | cons m ms ih =>
    obtain ⟨k, v⟩ := m
    obtain ⟨hv, hms⟩ := List.forall_mem_cons.1 h
    simp only [memberTokens, List.forall_mem_cons, List.forall_mem_append]
    exact ⟨trivial, trivial, trivial, hv, ih hms⟩

theorem legible_tokens {depth : Nat} {v : Json} (h : Legible depth v) :
    ∀ t ∈ v.tokens, t.Legible := by
  induction h with
  | null => exact List.forall_mem_singleton.2 trivial
  | bool b => exact List.forall_mem_singleton.2 trivial
  | num h => exact List.forall_mem_singleton.2 h
  | str s => exact List.forall_mem_singleton.2 trivial
  | @arr _ items _ ih =>
    cases items with
    | nil => exact List.forall_mem_cons.2 ⟨trivial, List.forall_mem_singleton.2 trivial⟩
    | cons v vs =>
      obtain ⟨hv, hvs⟩ := List.forall_mem_cons.1 ih
      simp only [tokens, List.forall_mem_cons, List.forall_mem_append]
      exact ⟨trivial, hv, legible_itemTokens hvs⟩
  | @obj _ members _ ih =>
    cases members with
    | nil => exact List.forall_mem_cons.2 ⟨trivial, List.forall_mem_singleton.2 trivial⟩
    | cons m ms =>
      obtain ⟨k, v⟩ := m
      obtain ⟨hv, hms⟩ := List.forall_mem_cons.1 ih
      simp only [tokens, List.forall_mem_cons, List.forall_mem_append]
      exact ⟨trivial, trivial, trivial, hv, legible_memberTokens hms⟩

namespace Token

variable {t t' : Token}

theorem ofWord?_text {n : Number} (h : n.Legible) :
    ofWord? R n.text = .num <$> n.reread? R := by
  obtain ⟨p, hp, -⟩ := Number.numeral_text h R
  rw [ofWord?_of_numeral hp, Number.ofText?_text h]

/-- A legible token is spelled as what the reader makes of it. -/
theorem spelling_spell (h : t.Legible) (ht : t.reread? R = some t') :
    Spelling R t.spell t' := by
  cases t with
  | num n =>
    rw [reread?, ← ofWord?_text h] at ht
    exact .word (ofWord?_eq_some_iff.1 ht)
  | str s =>
    cases ht
    have hquoted := Spelling.quoted (R := R) (Quoted.means_encode s.toList)
    rwa [String.ofList_toList] at hquoted
  | bool b =>
    cases ht
    cases b with
    | true => exact .word .yes
    | false => exact .word .no
  | null =>
    cases ht
    exact .word .null
  | _ =>
    cases ht
    exact .mark (by constructor)

theorem isWord_of_reread? (ht : t.reread? R = some t') : t'.isWord = t.isWord := by
  cases t with
  | num n =>
    obtain ⟨m, -, rfl⟩ := Option.map_eq_some_iff.1 ht
    rfl
  | _ =>
    cases ht
    rfl

/-- What is no word begins with a character that ends words. -/
theorem exists_endsWord (h : t.isWord = false) : ∃ c cs, t.spell = c :: cs ∧ Scan.endsWord c := by
  cases t with
  | null => cases h
  | bool b => cases h
  | num n => cases h
  | _ => exact ⟨_, _, rfl, rfl⟩

end Token

/-! ## Reading compact text -/

namespace Scan

variable {before : List Token} {s : Scan}

/-- A pending word that is refused stops the reading where it ends. -/
theorem foldlM_refused {cs : List Char} (hcs : Token.ofWord? R cs.reverse = none) {ts : List Token}
    (hts : ∀ t ∈ ts.head?, t.isWord = false) :
    ((ts.flatMap Token.spell).foldlM (next? R) ⟨before, .word cs⟩).bind (finish? R) = none := by
  cases ts with
  | nil => simp [finish?, hcs]
  | cons t ts =>
    obtain ⟨c, ds, hspell, hc⟩ := Token.exists_endsWord (hts t rfl)
    simp [hspell, next?, hc, hcs]

/-- Legible tokens are read as what the reader makes of them, if no word follows another. -/
theorem foldlM_spelled {ts : List Token} (hts : Spread ts) (hlegible : ∀ t ∈ ts, t.Legible)
    (h : After R before s)
    (hwords : ∀ u ∈ before.head?, u.isWord = true → ∀ t ∈ ts.head?, t.isWord = false) :
    ((ts.flatMap Token.spell).foldlM (next? R) s).bind (finish? R) =
      (before.reverse ++ ·) <$> ts.mapM (Token.reread? R) := by
  induction ts generalizing before s with
  | nil => simp [h.finish?]
  | cons t ts ih =>
    obtain ⟨ht, hlegible⟩ := List.forall_mem_cons.1 hlegible
    obtain ⟨hnext, hspread⟩ := List.isChain_cons.1 hts
    rw [List.flatMap_cons, List.foldlM_append, List.mapM_cons]
    cases hread : t.reread? R with
    | some t' =>
      have hword := Token.isWord_of_reread? hread
      obtain ⟨s', h', htoken⟩ := exists_after_token (Token.spelling_spell ht hread) h
        fun u hu huword => by rw [hword]; exact hwords u hu huword t rfl
      have hrest := ih hspread hlegible h' fun u hu huword v hv => by
        cases hu
        exact hnext v hv (hword ▸ huword)
      rw [htoken, Option.bind_eq_bind, Option.bind_some, hrest]
      cases ts.mapM (Token.reread? R) <;> simp
    | none =>
      obtain ⟨n, rfl⟩ : ∃ n, t = .num n := by
        cases t with
        | num n => exact ⟨n, rfl⟩
        | _ => cases hread
      have hrefused : Token.ofWord? R n.text.reverse.reverse = none := by
        rw [List.reverse_reverse, Token.ofWord?_text ht]
        exact hread
      obtain ⟨p, hp, -⟩ := Number.numeral_text ht R
      have hpending : n.text.foldlM (next? R) s = some ⟨before, .word n.text.reverse⟩ := by
        cases h with
        | settled =>
          exact foldlM_word hp.isNumeral.1 fun c hc => endsWord_of_isNumeral (hp.isNumeral.2 c hc)
        | word hu => cases hwords _ rfl hu.isWord _ rfl
      rw [Token.spell, hpending]
      exact foldlM_refused hrefused fun u hu => hnext u hu rfl

end Scan

/-- The text of a legible value is read as the value with what the reader makes of its doubles, if
it refuses none of them. -/
theorem ofText?_text {limit depth : Nat} {v : Json} (h : Legible depth v) (hdepth : depth ≤ limit)
    (R : Number.Reader) :
    ofText? R limit v.text = if Reads R v then some (v.mapReals R.reread) else none := by
  have hscan : scan? R v.text.toList = v.tokens.mapM (Token.reread? R) := by
    have hread := Scan.foldlM_spelled (spread_tokens h.within) (legible_tokens h)
      (.settled (R := R) []) (by simp)
    rw [toList_text]
    simpa [scan?, Scan.start] using hread
  have htokens : v.tokens.mapM (Token.reread? R) =
      if Reads R v then some (v.tokens.map (Token.mapReal R.reread)) else none :=
    mapM_reread? v.tokens
  rw [ofText?, hscan, htokens]
  by_cases hreads : Reads R v
  · have hwithin := (h.within.mapReals R.reread).mono hdepth
    rw [if_pos hreads, if_pos hreads, ← tokens_mapReals h.within]
    exact ofTokens?_eq_some_iff.2 ⟨rfl, hwithin⟩
  · rw [if_neg hreads, if_neg hreads]
    rfl

/-- The text of a legible value of which the doubles are read back denotes that value. -/
theorem ofText?_text_of_readsBack {limit depth : Nat} {v : Json} (h : Legible depth v)
    (hdepth : depth ≤ limit) (hback : ReadsBack R v) : ofText? R limit v.text = some v := by
  rw [ofText?_text h hdepth, if_pos hback.reads, hback.mapReals_reread h.within]

/-- The doubles in a legible value are finite. -/
theorem isFinite_of_mem_reals {depth : Nat} {v : Json} (h : Legible depth v) :
    ∀ x ∈ v.reals, x.isFinite := by
  intro x hx
  obtain ⟨t, ht, hreal⟩ := List.mem_filterMap.1 hx
  have hlegible := legible_tokens h t ht
  unfold Token.real? at hreal
  split at hreal
  · cases hreal
    exact hlegible
  · cases hreal

/-- The nearest doubles read every legible value back. -/
theorem readsBack_exact {depth : Nat} {v : Json} (h : Legible depth v) : v.ReadsBack .exact :=
  fun x hx => Number.reread?_exact (isFinite_of_mem_reals h x hx)

end LiveScene.Json
