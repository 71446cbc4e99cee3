import Mathlib.Data.List.Basic

/-!
# Incremental decoders

A decoder is called with its state and a buffer. It yields an item, or awaits more input, or
fails, and leaves a state and what it did not consume; it may consume a part of an item and
remember it in its state. `Feeds` is the run in which the input arrives in fragments and the
decoder is called after each fragment until it awaits more.

* **`Feeds.of_reads`**: a decoder that reads each item from its bytes (`Reads`) reads a
  sequence of items from the concatenation of their bytes, however it is cut, and from a part of
  these bytes the first of the items (`Feeds.prefix_of_reads`).
* `Expects` builds `Reads` in stages: headers that are consumed once they are complete, and
  a last part that is consumed with the item. A decoder may be `guarded` by a minimal length
  of its buffer, when no stage leaves fewer bytes to come.
-/

namespace Consentry.Lib

/-- An item, none when more input is awaited, or an error; with the state and the buffer that
the decoder leaves. -/
abbrev Decoder (σ β ε α : Type) := σ → List β → Except ε (Option α) × σ × List β

variable {σ β ε α : Type} {decode : Decoder σ β ε α} {m : ℕ} {a : α} {ready done s : σ}

/-! ## Runs -/

/-- The decoder is called until it awaits more input. -/
inductive Drains (decode : Decoder σ β ε α) : σ → List β → List α → σ → List β → Prop
  | await {s s' : σ} {buf buf' : List β} (call : decode s buf = (.ok none, s', buf')) :
    Drains decode s buf [] s' buf'
  | item {s s' s'' : σ} {buf buf' buf'' : List β} {a : α} {as : List α}
    (call : decode s buf = (.ok (some a), s', buf'))
    (rest : Drains decode s' buf' as s'' buf'') : Drains decode s buf (a :: as) s'' buf''

/-- Fragments arrive one after another, and after each the decoder is drained. -/
inductive Feeds (decode : Decoder σ β ε α) :
    σ → List β → List (List β) → List α → σ → List β → Prop
  | nil (s : σ) (buf : List β) : Feeds decode s buf [] [] s buf
  | fragment {s s' s'' : σ} {buf buf' buf'' frag : List β} {frags : List (List β)}
    {as as' : List α} (drain : Drains decode s (buf ++ frag) as s' buf')
    (rest : Feeds decode s' buf' frags as' s'' buf'') :
    Feeds decode s buf (frag :: frags) (as ++ as') s'' buf''

theorem Drains.unique {buf buf₁ buf₂ : List β} {as bs : List α} {s₁ s₂ : σ}
    (h₁ : Drains decode s buf as s₁ buf₁) (h₂ : Drains decode s buf bs s₂ buf₂) :
    as = bs ∧ s₁ = s₂ ∧ buf₁ = buf₂ := by
  induction h₁ generalizing bs with
  | await call =>
    cases h₂ with
    | await call' =>
      rw [call] at call'
      cases call'
      exact ⟨rfl, rfl, rfl⟩
    | item call' =>
      rw [call] at call'
      cases call'
  | item call _ ih =>
    cases h₂ with
    | await call' =>
      rw [call] at call'
      cases call'
    | item call' rest' =>
      rw [call] at call'
      cases call'
      obtain ⟨rfl, rfl, rfl⟩ := ih rest'
      exact ⟨rfl, rfl, rfl⟩

/-- A run is determined by its fragments: it has no other items and cannot fail. -/
theorem Feeds.unique {buf buf₁ buf₂ : List β} {frags : List (List β)} {as bs : List α}
    {s₁ s₂ : σ} (h₁ : Feeds decode s buf frags as s₁ buf₁)
    (h₂ : Feeds decode s buf frags bs s₂ buf₂) : as = bs ∧ s₁ = s₂ ∧ buf₁ = buf₂ := by
  induction h₁ generalizing bs with
  | nil =>
    cases h₂
    exact ⟨rfl, rfl, rfl⟩
  | fragment drain _ ih =>
    cases h₂ with
    | fragment drain' rest' =>
      obtain ⟨rfl, rfl, rfl⟩ := drain.unique drain'
      obtain ⟨rfl, rfl, rfl⟩ := ih rest'
      exact ⟨rfl, rfl, rfl⟩

/-- A decoder that fails on a fragment has no run over it. -/
theorem Feeds.not_error {s' s'' : σ} {buf buf' buf'' frag : List β} {frags : List (List β)}
    {as : List α} {e : ε} (hcall : decode s (buf ++ frag) = (.error e, s', buf')) :
    ¬ Feeds decode s buf (frag :: frags) as s'' buf'' := by
  intro h
  cases h with
  | fragment drain _ =>
    cases drain with
    | await call => cases hcall.symm.trans call
    | item call _ => cases hcall.symm.trans call

/-- A run over fragments and more fragments. -/
theorem Feeds.of_append {s'' : σ} {buf buf'' : List β} {frags frags' : List (List β)} {cs : List α}
    (h : Feeds decode s buf (frags ++ frags') cs s'' buf'') :
    ∃ as s' buf' bs, Feeds decode s buf frags as s' buf' ∧
      Feeds decode s' buf' frags' bs s'' buf'' ∧ cs = as ++ bs := by
  induction frags generalizing s buf cs with
  | nil => exact ⟨[], s, buf, cs, .nil s buf, h, rfl⟩
  | cons frag frags ih =>
    cases h with
    | fragment drain rest =>
      obtain ⟨as, s', buf', bs, hfirst, hrest, rfl⟩ := ih rest
      exact ⟨_, s', buf', bs, .fragment drain hfirst, hrest, (List.append_assoc ..).symm⟩

/-! ## Reading items -/

/-- `W s p`: in state `s` the decoder awaits the bytes `p` of the item, which it yields with
the last of them and no earlier. -/
structure Awaits (decode : Decoder σ β ε α) (a : α) (done : σ) (W : σ → List β → Prop) :
    Prop where
  short : ∀ {s pre post}, W s (pre ++ post) → post ≠ [] →
    ∃ s' rest, decode s pre = (.ok none, s', rest) ∧ W s' (rest ++ post)
  full : ∀ {s p} rest, W s p → decode s (p ++ rest) = (.ok (some a), done, rest)

/-- From `ready` the decoder reads the item from its bytes, however they are cut. -/
structure Reads (decode : Decoder σ β ε α) (ready : σ) (a : α) (bytes : List β) : Prop where
  nonempty : bytes ≠ []
  awaits : ∃ W, W ready bytes ∧ Awaits decode a ready W

/-- Before its last fragment an item is not yielded. -/
theorem Reads.last {bytes last : List β} {frags : List (List β)}
    (h : Reads decode ready a bytes) (hbytes : frags.flatten ++ last = bytes)
    (hlast : last ≠ []) :
    ∃ s buf, Feeds decode ready [] frags [] s buf ∧
      decode s (buf ++ last) = (.ok (some a), ready, []) := by
  obtain ⟨-, W, hready, hW⟩ := h
  suffices hrun : ∀ s buf, W s (buf ++ (frags.flatten ++ last)) →
      ∃ s' buf', Feeds decode s buf frags [] s' buf' ∧
        decode s' (buf' ++ last) = (.ok (some a), ready, []) from
    hrun ready [] (by rwa [hbytes])
  clear hready hbytes
  induction frags with
  | nil =>
    intro s buf hs
    refine ⟨s, buf, .nil s buf, ?_⟩
    have hfull := hW.full [] hs
    rwa [List.append_nil] at hfull
  | cons frag frags ih =>
    intro s buf hs
    rw [List.flatten_cons, List.append_assoc, ← List.append_assoc] at hs
    obtain ⟨s', rest, hcall, hs'⟩ := hW.short hs (by simp [hlast])
    obtain ⟨s'', buf', hfeeds, hitem⟩ := ih s' rest hs'
    exact ⟨s'', buf', .fragment (.await hcall) hfeeds, hitem⟩

/-- The bytes of a sequence of items. -/
def bytesOf (items : List (α × List β)) : List β := (items.map Prod.snd).flatten

/-- In state `s`, with `buf` in the buffer and `post` to come, the bytes of the items are
still to be read, and the buffer does not hold the first item. -/
def Pending (decode : Decoder σ β ε α) (ready s : σ) (buf post : List β) :
    List (α × List β) → Prop
  | [] => s = ready ∧ buf = [] ∧ post = []
  | c :: items => (∃ W p, Awaits decode c.1 ready W ∧ W s p ∧ buf.length < p.length ∧
      buf ++ post = p ++ bytesOf items) ∧ ∀ c' ∈ items, Reads decode ready c'.1 c'.2

section

variable {c : α × List β} {items : List (α × List β)} {buf post : List β}

/-- A cut of a stream falls within its first part, or behind it. -/
theorem cut_cases {p q : List β} (h : buf ++ post = p ++ q) :
    (∃ r, r ≠ [] ∧ p = buf ++ r ∧ post = r ++ q) ∨ ∃ r, buf = p ++ r ∧ r ++ post = q := by
  rcases List.append_eq_append_iff.1 h with ⟨r, hp, hpost⟩ | ⟨r, hbuf, hq⟩
  · by_cases hr : r = []
    · subst hr
      rw [List.append_nil] at hp
      exact .inr ⟨[], by rw [hp, List.append_nil], hpost⟩
    · exact .inl ⟨r, hr, hp, hpost⟩
  · exact .inr ⟨r, hbuf, hq.symm⟩

/-- A part of the first item is awaited. -/
theorem drains_short (hitems : ∀ c' ∈ items, Reads decode ready c'.1 c'.2)
    {W : σ → List β → Prop} (hW : Awaits decode c.1 ready W) {r : List β} (hs : W s (buf ++ r))
    (hr : r ≠ []) (hpost : post = r ++ bytesOf items) :
    ∃ s' rest, Drains decode s buf [] s' rest ∧
      Pending decode ready s' rest post (c :: items) := by
  obtain ⟨s', rest, hcall, hs'⟩ := hW.short hs hr
  refine ⟨s', rest, .await hcall, ⟨W, rest ++ r, hW, hs', ?_, ?_⟩, hitems⟩
  · have hlen := List.length_pos_iff.2 hr
    rw [List.length_append]
    omega
  · rw [hpost, List.append_assoc]

/-- Draining a buffer yields the items that are complete. -/
theorem drains_awaits (hidle : decode ready [] = (.ok none, ready, []))
    (hitems : ∀ c' ∈ items, Reads decode ready c'.1 c'.2) {W : σ → List β → Prop}
    (hW : Awaits decode c.1 ready W) {p : List β} (hs : W s p)
    (hstream : buf ++ post = p ++ bytesOf items) :
    ∃ as s' buf' items', Drains decode s buf as s' buf' ∧
      (c :: items).map Prod.fst = as ++ items'.map Prod.fst ∧
      Pending decode ready s' buf' post items' := by
  induction items generalizing c s W p buf with
  | nil =>
    rcases cut_cases hstream with ⟨r, hr, rfl, hpost⟩ | ⟨r, rfl, hrest⟩
    · obtain ⟨s', rest, hdrains, hpending⟩ := drains_short hitems hW hs hr hpost
      exact ⟨[], s', rest, [c], hdrains, rfl, hpending⟩
    · obtain ⟨rfl, rfl⟩ := List.append_eq_nil_iff.1 hrest
      exact ⟨[c.1], ready, [], [], .item (hW.full [] hs) (.await hidle), rfl, rfl, rfl, rfl⟩
  | cons c' items ih =>
    rcases cut_cases hstream with ⟨r, hr, rfl, hpost⟩ | ⟨r, rfl, hrest⟩
    · obtain ⟨s', rest, hdrains, hpending⟩ := drains_short hitems hW hs hr hpost
      exact ⟨[], s', rest, c :: c' :: items, hdrains, rfl, hpending⟩
    · obtain ⟨-, W', hready, hW'⟩ := hitems c' List.mem_cons_self
      obtain ⟨as, s', buf', items', hdrains, heq, hpending⟩ :=
        ih (fun d hd => hitems d (List.mem_cons_of_mem c' hd)) hW' hready hrest
      exact ⟨c.1 :: as, s', buf', items', .item (hW.full r hs) hdrains,
        by rw [List.map_cons, heq, List.cons_append], hpending⟩

theorem feeds_pending (hidle : decode ready [] = (.ok none, ready, [])) {frags : List (List β)}
    (h : Pending decode ready s buf frags.flatten items) :
    Feeds decode s buf frags (items.map Prod.fst) ready [] := by
  induction frags generalizing s buf items with
  | nil =>
    cases items with
    | nil =>
      obtain ⟨rfl, rfl, -⟩ := h
      exact .nil _ _
    | cons c items =>
      obtain ⟨⟨W, p, -, -, hlen, hstream⟩, -⟩ := h
      have := congrArg List.length hstream
      simp only [List.flatten_nil, List.append_nil, List.length_append] at this
      omega
  | cons frag frags ih =>
    cases items with
    | nil =>
      obtain ⟨rfl, rfl, hpost⟩ := h
      obtain ⟨rfl, hfrags⟩ := List.append_eq_nil_iff.1 hpost
      have hpending : Pending decode s s [] frags.flatten [] := ⟨rfl, rfl, hfrags⟩
      have hdrains : Drains decode s ([] ++ []) [] s [] := .await hidle
      exact .fragment hdrains (ih hpending)
    | cons c items =>
      obtain ⟨⟨W, p, hW, hs, -, hstream⟩, hitems⟩ := h
      rw [List.flatten_cons, ← List.append_assoc] at hstream
      obtain ⟨as, s', buf', items', hdrains, heq, hpending⟩ :=
        drains_awaits hidle hitems hW hs hstream
      rw [heq]
      exact .fragment hdrains (ih hpending)

/-- **A stream of items is read however it is cut**, and leaves nothing behind. -/
theorem Feeds.of_reads (hidle : decode ready [] = (.ok none, ready, []))
    (hitems : ∀ c ∈ items, Reads decode ready c.1 c.2) {frags : List (List β)}
    (hfrags : frags.flatten = bytesOf items) :
    Feeds decode ready [] frags (items.map Prod.fst) ready [] := by
  refine feeds_pending hidle ?_
  cases items with
  | nil => exact ⟨rfl, rfl, hfrags⟩
  | cons c items =>
    obtain ⟨hne, W, hready, hW⟩ := hitems c List.mem_cons_self
    exact ⟨⟨W, c.2, hW, hready, List.length_pos_iff.2 hne, hfrags⟩,
      fun c' hc' => hitems c' (List.mem_cons_of_mem c hc')⟩

/-- **A part of a stream** yields the first of its items, and no other. -/
theorem Feeds.prefix_of_reads (hidle : decode ready [] = (.ok none, ready, []))
    (hitems : ∀ c ∈ items, Reads decode ready c.1 c.2) {frags : List (List β)}
    (hfrags : frags.flatten <+: bytesOf items) {as : List α} {buf : List β}
    (h : Feeds decode ready [] frags as s buf) : as <+: items.map Prod.fst := by
  obtain ⟨rest, hrest⟩ := hfrags
  have hall : (frags ++ [rest]).flatten = bytesOf items := by
    rw [List.flatten_append, List.flatten_singleton, hrest]
  obtain ⟨as', s', buf', bs, hfirst, -, heq⟩ := (of_reads hidle hitems hall).of_append
  obtain ⟨rfl, -, -⟩ := h.unique hfirst
  exact ⟨bs, heq.symm⟩

end

/-! ## Stages -/

/-- In state `s` the decoder expects the bytes of the item, in stages: a header is consumed
when it is complete and leads to the next stage, the last part is consumed with the item. No
stage but one without bytes has fewer than `m` to come. -/
inductive Expects (decode : Decoder σ β ε α) (a : α) (done : σ) (m : ℕ) : σ → List β → Prop
  | last {s : σ} {p : List β}
    (short : ∀ pre post, p = pre ++ post → post ≠ [] → decode s pre = (.ok none, s, pre))
    (full : ∀ rest, decode s (p ++ rest) = (.ok (some a), done, rest)) :
    Expects decode a done m s p
  | header {s s' : σ} {h p : List β}
    (short : ∀ pre post, h = pre ++ post → post ≠ [] → decode s pre = (.ok none, s, pre))
    (full : ∀ rest, decode s (h ++ rest) = decode s' rest) (long : p = [] ∨ m ≤ p.length)
    (next : Expects decode a done m s' p) : Expects decode a done m s (h ++ p)

/-- A decoder that awaits at least `m` bytes. -/
def guarded (m : ℕ) (decode : Decoder σ β ε α) : Decoder σ β ε α := fun s buf =>
  if buf.length < m then (.ok none, s, buf) else decode s buf

theorem guarded_zero (decode : Decoder σ β ε α) : guarded 0 decode = decode := by
  funext s buf
  exact if_neg (Nat.not_lt_zero _)

namespace Expects

variable {p pre post : List β}

theorem full (h : Expects decode a done m s p) (rest : List β) :
    decode s (p ++ rest) = (.ok (some a), done, rest) := by
  induction h with
  | last _ full => exact full rest
  | header _ full _ _ ih => rw [List.append_assoc, full, ih]

theorem short (h : Expects decode a done m s p) (hp : p = pre ++ post) (hpost : post ≠ [])
    (hlong : m ≤ p.length) : ∃ s' rest, decode s pre = (.ok none, s', rest) ∧
      Expects decode a done m s' (rest ++ post) ∧ m ≤ (rest ++ post).length := by
  induction h generalizing pre with
  | last short full => exact ⟨_, pre, short pre post hp hpost, hp ▸ .last short full, hp ▸ hlong⟩
  | @header s s' h p short full long next ih =>
    rcases cut_cases hp.symm with ⟨r, hr, hh, -⟩ | ⟨r, rfl, hrest⟩
    · exact ⟨s, pre, short pre r hh hr, hp ▸ .header short full long next, hp ▸ hlong⟩
    · have hlong' : m ≤ p.length := by
        rcases long with hnil | hlong'
        · rw [← hrest] at hnil
          exact absurd (List.append_eq_nil_iff.1 hnil).2 hpost
        · exact hlong'
      rw [full]
      exact ih hrest.symm hlong'

/-- Stages that have at least `m` bytes to come are read under the guard. -/
theorem reads (h : Expects decode a ready m ready p) (hp : p ≠ []) (hlong : m ≤ p.length) :
    Reads (guarded m decode) ready a p := by
  refine ⟨hp, fun s q => Expects decode a ready m s q ∧ m ≤ q.length, ⟨h, hlong⟩, ?_, ?_⟩
  · rintro s pre post ⟨hs, hq⟩ hpost
    unfold guarded
    split
    · exact ⟨s, pre, rfl, hs, hq⟩
    · exact hs.short rfl hpost hq
  · rintro s q rest ⟨hs, hq⟩
    unfold guarded
    rw [if_neg (by rw [List.length_append]; omega), hs.full rest]

/-- A decoder that works on the results of another one has its stages. -/
theorem map {τ ε' α' : Type} {decode' : Decoder τ β ε' α'} {a' : α'} {done' : τ} (g : σ → τ)
    (post : Except ε (Option α) × σ × List β → Except ε' (Option α') × τ × List β)
    (hcall : ∀ s buf, decode' (g s) buf = post (decode s buf))
    (hnone : ∀ s buf, post (.ok none, s, buf) = (.ok none, g s, buf))
    (hsome : ∀ buf, post (.ok (some a), done, buf) = (.ok (some a'), done', buf))
    (h : Expects decode a done m s p) : Expects decode' a' done' m (g s) p := by
  induction h with
  | last short full =>
    refine .last (fun pre q hp hq => ?_) fun rest => ?_
    · rw [hcall, short pre q hp hq, hnone]
    · rw [hcall, full, hsome]
  | header short full long _ ih =>
    refine .header (fun pre q hp hq => ?_) (fun rest => ?_) long ih
    · rw [hcall, short pre q hp hq, hnone]
    · rw [hcall, hcall, full]

end Expects

/-- An item of `m` bytes is read under a guard of `m` bytes. -/
theorem Reads.of_length_eq {bytes : List β} (hne : bytes ≠ []) (hlen : bytes.length = m)
    (hfull : ∀ rest, decode ready (bytes ++ rest) = (.ok (some a), ready, rest)) :
    Reads (guarded m decode) ready a bytes := by
  refine ⟨hne, fun s p => s = ready ∧ p = bytes, ⟨rfl, rfl⟩, ?_, ?_⟩
  · rintro s pre post ⟨rfl, rfl⟩ hpost
    have hpos := List.length_pos_iff.2 hpost
    rw [List.length_append] at hlen
    exact ⟨s, pre, if_pos (by omega), rfl, rfl⟩
  · rintro s p rest ⟨rfl, rfl⟩
    unfold guarded
    rw [if_neg (by rw [List.length_append]; omega), hfull]

end Consentry.Lib
