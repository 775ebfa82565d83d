import EventDispatcher.Lib.Run

/-!
# Recursive descent with one token of look-ahead

A parser takes the tokens that are left, of which the first one is the look-ahead, and returns
what it read with the tokens after it.  `Parses` says that a parser reads the phrases of a
grammar: what it accepts is a phrase, it does not run out of fuel, and it accepts each phrase
that is followed by tokens which cannot go on with it.  The two loops of such parsers keep it:
operators that associate to the left (`parses_chain`) and lists with separators (`parses_sepBy`).
-/

namespace Lib

/-- A parser: what it read, and the tokens that are left. -/
abbrev Parser (τ ε α : Type*) := List τ → Except ε (α × List τ)

section Parses

variable {τ ε α β σ : Type*}

/-- `next` goes to the next token when what it finds there is good. -/
structure Advances (out : ε) (Good : List τ → Prop) (next : List τ → Except ε (List τ)) :
    Prop where
  tail : ∀ {toks toks'}, next toks = .ok toks' → toks' = toks.tail
  ne_out : ∀ toks, next toks ≠ .error out
  ok : ∀ {toks}, Good toks.tail → next toks = .ok toks.tail

/-- The phrases have a first token, which is a good one. -/
structure Phrases (Good : List τ → Prop) (R : List τ → α → Prop) : Prop where
  ne_nil : ∀ {w a}, R w a → w ≠ []
  good : ∀ {w a}, R w a → ∀ rest, Good (w ++ rest)

/-- The parser reads the phrases of a relation, those of fewer than `n` tokens when it has to
find them; `out` is the failure of a parser that ran out of fuel. -/
structure Parses (out : ε) (n : ℕ) (p : Parser τ ε α) (R : List τ → α → Prop)
    (Follow : List τ → Prop) : Prop where
  sound : ∀ {toks a rest}, p toks = .ok (a, rest) → ∃ w, toks = w ++ rest ∧ R w a
  total : ∀ {toks}, toks.length < n → p toks ≠ .error out
  complete : ∀ {w a rest}, R w a → w.length < n → Follow rest → p (w ++ rest) = .ok (a, rest)

/-- What is read has a first token, so that fewer tokens are left. -/
lemma Parses.lt_of_ok {out : ε} {n : ℕ} {p : Parser τ ε α} {R : List τ → α → Prop}
    {Follow Good : List τ → Prop} (h : Parses out n p R Follow) (hR : Phrases Good R)
    {toks rest : List τ} {a : α} (hp : p toks = .ok (a, rest)) : rest.length < toks.length := by
  obtain ⟨w, rfl, hw⟩ := h.sound hp
  have := List.length_pos_iff.mpr (hR.ne_nil hw)
  rw [List.length_append]
  omega

/-- A parser reads its phrases also when less can follow them. -/
lemma Parses.imp_follow {out : ε} {n : ℕ} {p : Parser τ ε α} {R : List τ → α → Prop}
    {Follow Follow' : List τ → Prop} (h : Parses out n p R Follow)
    (himp : ∀ rest, Follow' rest → Follow rest) : Parses out n p R Follow' :=
  ⟨h.sound, h.total, fun hw hn hrest => h.complete hw hn (himp _ hrest)⟩

/-- A sequence of two computations fails with the failure of one of them. -/
lemma bind_ne_error {x : Except ε β} {f : β → Except ε α} {e : ε} (hx : x ≠ .error e)
    (hf : ∀ b, x = .ok b → f b ≠ .error e) : x.bind f ≠ .error e := by
  cases x with
  | error e' => exact fun h => hx (Except.error.inj h ▸ rfl)
  | ok b => exact hf b rfl

/-! ### Operators that associate to the left -/

/-- The loop after the first operand: while the look-ahead is an operator, read it and an
operand, and put them together with what was read before. -/
def chainLoop (out : ε) (next : List τ → Except ε (List τ)) (op : τ → Option (α → α → α))
    (operand : Parser τ ε α) : ℕ → α → Parser τ ε α
  | 0, _, _ => .error out
  | n + 1, left, toks =>
    match toks.head?.bind op with
    | none => .ok (left, toks)
    | some f =>
      (next toks).bind fun toks =>
      (operand toks).bind fun right =>
      chainLoop out next op operand n (f left right.1) right.2

/-- Operands with operators between them. -/
def chain (out : ε) (next : List τ → Except ε (List τ)) (op : τ → Option (α → α → α))
    (operand : Parser τ ε α) : Parser τ ε α := fun toks =>
  (operand toks).bind fun left =>
  chainLoop out next op operand (left.2.length + 1) left.1 left.2

/-- The phrases of a level with operators that associate to the left. -/
inductive Chain (op : τ → Option (α → α → α)) (R : List τ → α → Prop) : List τ → α → Prop
  | operand {w : List τ} {a : α} (h : R w a) : Chain op R w a
  | step {u v : List τ} {a b : α} {t : τ} {f : α → α → α} (hu : Chain op R u a)
      (ht : op t = some f) (hv : R v b) : Chain op R (u ++ t :: v) (f a b)

variable {out : ε} {Good Follow : List τ → Prop} {next : List τ → Except ε (List τ)}
  {op : τ → Option (α → α → α)} {operand : Parser τ ε α} {n : ℕ} {R : List τ → α → Prop}

lemma chainLoop_sound (hnext : Advances out Good next) (hp : Parses out n operand R Follow)
    (k : ℕ) {u toks rest : List τ} {left a : α} (hu : Chain op R u left)
    (h : chainLoop out next op operand k left toks = .ok (a, rest)) :
    ∃ w, toks = w ++ rest ∧ Chain op R (u ++ w) a := by
  induction k generalizing u toks left with
  | zero => cases h
  | succ k ih =>
    rw [chainLoop] at h
    split at h
    · cases h
      exact ⟨[], rfl, by rwa [List.append_nil]⟩
    · rename_i f hf
      obtain ⟨toks', hn, hoperand⟩ := exists_of_bind_eq_ok h
      obtain ⟨⟨right, toks''⟩, hright, hloop⟩ := exists_of_bind_eq_ok hoperand
      obtain ⟨v, rfl, hv⟩ := hp.sound hright
      cases toks with
      | nil => cases hf
      | cons t toks =>
        have htail : v ++ toks'' = toks := hnext.tail hn
        obtain ⟨w, rfl, hw⟩ := ih (hu.step hf hv) hloop
        refine ⟨t :: (v ++ w), ?_, ?_⟩
        · rw [List.cons_append, List.append_assoc, htail]
        · simpa using hw

lemma chainLoop_total (hnext : Advances out Good next) (hR : Phrases Good R)
    (hp : Parses out n operand R Follow) (k : ℕ) {toks : List τ} {left : α}
    (hk : toks.length < k) (hn : toks.length < n) :
    chainLoop out next op operand k left toks ≠ .error out := by
  induction k generalizing toks left with
  | zero => omega
  | succ k ih =>
    rw [chainLoop]
    split
    · exact fun h => by cases h
    · rename_i f hf
      refine bind_ne_error (hnext.ne_out _) fun toks' ht => ?_
      cases toks with
      | nil => cases hf
      | cons t toks =>
        obtain rfl : toks' = toks := hnext.tail ht
        rw [List.length_cons] at hk hn
        refine bind_ne_error (hp.total (by omega)) ?_
        rintro ⟨right, toks''⟩ hright
        have hlt := hp.lt_of_ok hR hright
        exact ih (show toks''.length < k by omega) (show toks''.length < n by omega)

/-- After a phrase the parser is in its loop, with what the phrase says. -/
lemma chain_append (hnext : Advances out Good next) (hR : Phrases Good R)
    (hp : Parses out n operand R Follow)
    (hop : ∀ t f rest, op t = some f → Follow (t :: rest)) {w : List τ} {a : α}
    (hw : Chain op R w a) (hn : w.length < n) (rest : List τ) (hrest : Follow rest) :
    ∃ k, rest.length < k ∧
      chain out next op operand (w ++ rest) = chainLoop out next op operand k a rest := by
  induction hw generalizing rest with
  | operand h =>
    refine ⟨rest.length + 1, Nat.lt_succ_self _, ?_⟩
    rw [chain, hp.complete h hn hrest]
    rfl
  | @step u v a b t f hu ht hv ih =>
    rw [List.length_append, List.length_cons] at hn
    obtain ⟨k, hk, hloop⟩ := ih (by omega) (t :: (v ++ rest)) (hop t f _ ht)
    rw [List.length_cons, List.length_append] at hk
    cases k with
    | zero => omega
    | succ k =>
      refine ⟨k, by omega, ?_⟩
      have hadvance : next (t :: (v ++ rest)) = .ok (v ++ rest) := hnext.ok (hR.good hv rest)
      rw [List.append_assoc, List.cons_append, hloop, chainLoop]
      simp only [List.head?_cons, Option.bind_some, ht, hadvance]
      change (operand (v ++ rest)).bind _ = _
      rw [hp.complete hv (by omega) hrest]
      rfl

/-- **Operators.**  A level of operators reads its phrases, when an operand can be followed by
an operator. -/
theorem parses_chain (hnext : Advances out Good next) (hR : Phrases Good R)
    (hp : Parses out n operand R Follow)
    (hop : ∀ t f rest, op t = some f → Follow (t :: rest)) :
    Parses out n (chain out next op operand) (Chain op R)
      (fun rest => Follow rest ∧ rest.head?.bind op = none) where
  sound h := by
    obtain ⟨⟨left, toks'⟩, hleft, hloop⟩ := exists_of_bind_eq_ok h
    obtain ⟨u, rfl, hu⟩ := hp.sound hleft
    obtain ⟨w, rfl, hw⟩ := chainLoop_sound hnext hp _ (.operand hu) hloop
    exact ⟨u ++ w, by rw [List.append_assoc], hw⟩
  total hn := by
    refine bind_ne_error (hp.total hn) ?_
    rintro ⟨left, toks'⟩ hleft
    have hlt := hp.lt_of_ok hR hleft
    exact chainLoop_total hnext hR hp _ (Nat.lt_succ_self _) (show toks'.length < n by omega)
  complete hw hn hrest := by
    obtain ⟨k, hk, h⟩ := chain_append hnext hR hp hop hw hn _ hrest.1
    cases k with
    | zero => omega
    | succ k => rw [h, chainLoop, hrest.2]

/-! ### Lists with separators -/

/-- The loop over a list: read an item, add it to what was read, and go on while the look-ahead
is a separator. -/
def sepLoop (out : ε) (next : List τ → Except ε (List τ)) (sep : τ → Bool)
    (item : Parser τ ε β) (add : σ → β → Except ε σ) : ℕ → σ → Parser τ ε σ
  | 0, _, _ => .error out
  | n + 1, s, toks =>
    (item toks).bind fun a =>
    (add s a.1).bind fun s =>
    if a.2.head?.any sep then (next a.2).bind (sepLoop out next sep item add n s)
    else .ok (s, a.2)

/-- Items with separators between them, added to `s` one after the other. -/
def sepBy (out : ε) (next : List τ → Except ε (List τ)) (sep : τ → Bool) (item : Parser τ ε β)
    (add : σ → β → Except ε σ) (s : σ) : Parser τ ε σ := fun toks =>
  sepLoop out next sep item add (toks.length + 1) s toks

/-- The phrases that are items with separators between them. -/
inductive Separated (sep : τ → Bool) (R : List τ → β → Prop) : List τ → List β → Prop
  | one {w : List τ} {a : β} (h : R w a) : Separated sep R w [a]
  | more {w v : List τ} {a : β} {l : List β} {t : τ} (h : R w a) (ht : sep t)
      (hl : Separated sep R v l) : Separated sep R (w ++ t :: v) (a :: l)

variable {sep : τ → Bool} {item : Parser τ ε β} {add : σ → β → Except ε σ}
  {Item : List τ → β → Prop}

lemma Phrases.separated (hR : Phrases Good Item) : Phrases Good (Separated sep Item) where
  ne_nil h := by
    cases h with
    | one h => exact hR.ne_nil h
    | more => simp
  good h rest := by
    cases h with
    | one h => exact hR.good h rest
    | more h =>
      rw [List.append_assoc]
      exact hR.good h _

lemma foldlM_cons_eq_ok {a : β} {l : List β} {s s' : σ} :
    (a :: l).foldlM add s = .ok s' ↔ ∃ s₁, add s a = .ok s₁ ∧ l.foldlM add s₁ = .ok s' := by
  rw [List.foldlM_cons]
  constructor
  · exact fun h => exists_of_bind_eq_ok h
  · rintro ⟨s₁, hs₁, hl⟩
    rw [hs₁]
    exact hl

lemma sepLoop_sound (hnext : Advances out Good next) (hp : Parses out n item Item Follow) (k : ℕ)
    {s s' : σ} {toks rest : List τ} (h : sepLoop out next sep item add k s toks = .ok (s', rest)) :
    ∃ w l, toks = w ++ rest ∧ Separated sep Item w l ∧ l.foldlM add s = .ok s' := by
  induction k generalizing s toks with
  | zero => cases h
  | succ k ih =>
    obtain ⟨⟨a, toks'⟩, hitem, hadd⟩ := exists_of_bind_eq_ok h
    obtain ⟨w, rfl, hw⟩ := hp.sound hitem
    obtain ⟨s₁, hs₁, hrest⟩ := exists_of_bind_eq_ok hadd
    split at hrest
    · rename_i hsep
      obtain ⟨toks'', hn, hloop⟩ := exists_of_bind_eq_ok hrest
      cases toks' with
      | nil => cases hsep
      | cons t toks' =>
        obtain rfl : toks'' = toks' := hnext.tail hn
        obtain ⟨v, l, rfl, hv, hl⟩ := ih hloop
        exact ⟨w ++ t :: v, a :: l, by simp, .more hw hsep hv,
          foldlM_cons_eq_ok.mpr ⟨s₁, hs₁, hl⟩⟩
    · cases hrest
      exact ⟨w, [a], rfl, .one hw, foldlM_cons_eq_ok.mpr ⟨_, hs₁, rfl⟩⟩

lemma sepLoop_total (hnext : Advances out Good next) (hR : Phrases Good Item)
    (hp : Parses out n item Item Follow) (hadd : ∀ s a, add s a ≠ .error out) (k : ℕ) {s : σ}
    {toks : List τ} (hk : toks.length < k) (hn : toks.length < n) :
    sepLoop out next sep item add k s toks ≠ .error out := by
  induction k generalizing s toks with
  | zero => omega
  | succ k ih =>
    refine bind_ne_error (hp.total hn) ?_
    rintro ⟨a, toks'⟩ hitem
    have hlt := hp.lt_of_ok hR hitem
    refine bind_ne_error (hadd _ _) fun s₁ _ => ?_
    split
    · refine bind_ne_error (hnext.ne_out _) fun toks'' ht => ?_
      have htail : toks'' = toks'.tail := hnext.tail ht
      have hle : toks''.length ≤ toks'.length := by
        rw [htail, List.length_tail]
        exact Nat.sub_le _ _
      exact ih (by omega) (by omega)
    · exact fun h => by cases h

lemma sepLoop_complete (hnext : Advances out Good next) (hR : Phrases Good Item)
    (hp : Parses out n item Item Follow) (hsep : ∀ t rest, sep t → Follow (t :: rest))
    {w : List τ} {l : List β} (hw : Separated sep Item w l) (hn : w.length < n) {s s' : σ}
    (hl : l.foldlM add s = .ok s') {rest : List τ} (hrest : Follow rest)
    (hend : rest.head?.any sep = false) (k : ℕ) (hk : w.length < k) :
    sepLoop out next sep item add k s (w ++ rest) = .ok (s', rest) := by
  induction hw generalizing s k with
  | one h =>
    cases k with
    | zero => omega
    | succ k =>
      obtain ⟨s₁, hs₁, hs'⟩ := foldlM_cons_eq_ok.mp hl
      cases hs'
      rw [sepLoop, hp.complete h hn hrest]
      change (add s _).bind _ = _
      rw [hs₁]
      change (if rest.head?.any sep then _ else _) = _
      rw [hend]
      rfl
  | @more w v a l t h ht hv ih =>
    rw [List.length_append, List.length_cons] at hn hk
    cases k with
    | zero => omega
    | succ k =>
      obtain ⟨s₁, hs₁, hs'⟩ := foldlM_cons_eq_ok.mp hl
      have hadvance : next (t :: (v ++ rest)) = .ok (v ++ rest) :=
        hnext.ok (hR.separated.good hv rest)
      rw [List.append_assoc, List.cons_append, sepLoop,
        hp.complete h (by omega) (hsep t _ ht)]
      change (add s a).bind _ = _
      rw [hs₁]
      change (if (t :: (v ++ rest)).head?.any sep then
        (next (t :: (v ++ rest))).bind _ else _) = _
      rw [List.head?_cons, Option.any_some, ht, if_pos rfl, hadvance]
      exact ih (by omega) hs' k (by omega)

/-- **Lists.**  A list of items reads its phrases and adds what the items say. -/
theorem parses_sepBy (hnext : Advances out Good next) (hR : Phrases Good Item)
    (hp : Parses out n item Item Follow) (hadd : ∀ s a, add s a ≠ .error out)
    (hsep : ∀ t rest, sep t → Follow (t :: rest)) (s : σ) :
    Parses out n (sepBy out next sep item add s)
      (fun w s' => ∃ l, Separated sep Item w l ∧ l.foldlM add s = .ok s')
      (fun rest => Follow rest ∧ rest.head?.any sep = false) where
  sound h := by
    obtain ⟨w, l, rfl, hw, hl⟩ := sepLoop_sound hnext hp _ h
    exact ⟨w, rfl, l, hw, hl⟩
  total hn := sepLoop_total hnext hR hp hadd _ (Nat.lt_succ_self _) hn
  complete := by
    rintro w s' rest ⟨l, hw, hl⟩ hn ⟨hrest, hend⟩
    refine sepLoop_complete hnext hR hp hsep hw hn hl hrest hend _ ?_
    rw [List.length_append]
    omega

end Parses

end Lib
