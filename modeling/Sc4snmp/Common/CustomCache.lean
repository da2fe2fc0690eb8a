import Mathlib.Algebra.Order.Floor.Ring
import Mathlib.Data.Rat.Floor
import Mathlib.Tactic.Linarith
import Sc4snmp.Lib.LruCache

/-!
# A cache whose entries expire

`ttl_lru_cache` puts the number of the current time window into the key of an `lru_cache`.  A
window is `ttl` seconds long; the first one starts when the cached function is called first.
`resolve_address` keeps the names of addresses in such a cache.

Clock readings are rational numbers, and the quotient of a reading and a window is exact.  The
clock may go back.

## Main definitions

* `ttlHash`, `TtlCache.wrapped` — the source, with the state between the calls.
* `resolveAddress` — the function that is cached.

## Main results

* `ttl_lru_cache_fresh` — **a result is younger than `ttl` seconds.**
* `ttl_lru_cache_hit` — within a window the function is not called again while fewer than
  `maxsize` other results are taken.
* `resolve_address_fresh` — the host of a trap is what the name service says about it.
-/

namespace Sc4snmp

variable {α ν ε : Type*} [DecidableEq α]

/-! ### The source -/

/-- The lifetime for an argument `ttl`. -/
def ttlSeconds (ttl : ℤ) : ℤ := if ttl ≤ 0 then 65536 else ttl

/-- A value of `_ttl_hash_gen`. -/
def ttlHash (seconds : ℤ) (startTime now : ℚ) : ℤ := ⌊(now - startTime) / seconds⌋

/-- A call of a cached function. -/
structure TtlCall (α ν ε : Type*) where
  /-- The reading with which a generator starts. -/
  started : ℚ
  now : ℚ
  args : α
  /-- What the function gives at that moment. -/
  computed : Except ε ν

/-- What a cached function keeps. -/
structure TtlCache (α ν : Type*) where
  /-- `start_time`, once the generator has started. -/
  startTime : Option ℚ
  entries : List ((ℤ × α) × ν)

namespace TtlCache

def empty : TtlCache α ν := ⟨none, []⟩

/-- The key of a call. -/
def key (ttl : ℤ) (s : TtlCache α ν) (c : TtlCall α ν ε) : ℤ × α :=
  (ttlHash (ttlSeconds ttl) (s.startTime.getD c.started) c.now, c.args)

/-- `wrapped`; a negative `maxsize` is zero. -/
def wrapped (maxsize ttl : ℤ) (s : TtlCache α ν) (c : TtlCall α ν ε) :
    Except ε ν × TtlCache α ν :=
  let th := s.key ttl c
  let (result, entries) := LruCache.call maxsize.toNat th c.computed s.entries
  (result, ⟨some (s.startTime.getD c.started), entries⟩)

/-- What a call leaves. -/
def step (maxsize ttl : ℤ) (s : TtlCache α ν) (c : TtlCall α ν ε) : TtlCache α ν :=
  (wrapped maxsize ttl s c).2

/-- The function is called. -/
def invokes (ttl : ℤ) (s : TtlCache α ν) (c : TtlCall α ν ε) : Bool :=
  LruCache.computes (s.key ttl c) s.entries

/-! ### The cache below -/

/-- A call, for a generator that started at a time. -/
def toCall (ttl : ℤ) (startTime : ℚ) (c : TtlCall α ν ε) : LruCache.CallOf (ℤ × α) ν ε :=
  ⟨(ttlHash (ttlSeconds ttl) startTime c.now, c.args), c.computed⟩

/-- The time at which the generator has started when a call comes after a run. -/
def startOf (cs : List (TtlCall α ν ε)) (c : TtlCall α ν ε) : ℚ :=
  (cs.head?.getD c).started

theorem final_of_started (maxsize ttl : ℤ) (t : ℚ) (cs : List (TtlCall α ν ε))
    (entries : List ((ℤ × α) × ν)) (S : LruCache.State (ℤ × α) ν ε) (h : S.entries = entries) :
    Run.final (step maxsize ttl) ⟨some t, entries⟩ cs =
      ⟨some t, (Run.final (LruCache.step maxsize.toNat) S (cs.map (toCall ttl t))).entries⟩ := by
  induction cs generalizing entries S with
  | nil => simp [h]
  | cons c cs ih =>
    rw [Run.final_cons, List.map_cons, Run.final_cons]
    refine ih _ (LruCache.step maxsize.toNat S (toCall ttl t c)) ?_
    rw [← h]
    rfl

/-- **A run is one of the cache below**, with the windows counted from the first call. -/
theorem wrapped_final (maxsize ttl : ℤ) (cs : List (TtlCall α ν ε)) (c : TtlCall α ν ε) :
    (Run.final (step maxsize ttl) empty cs).key ttl c = (toCall ttl (startOf cs c) c).key ∧
      (Run.final (step maxsize ttl) empty cs).entries =
        (Run.final (LruCache.step maxsize.toNat) LruCache.empty
          (cs.map (toCall ttl (startOf cs c)))).entries := by
  cases cs with
  | nil => exact ⟨rfl, rfl⟩
  | cons d cs =>
    have hfinal := final_of_started maxsize ttl d.started cs _
      (LruCache.step maxsize.toNat LruCache.empty (toCall ttl d.started d)) rfl
    have hstep : step maxsize ttl empty d = ⟨some d.started,
        (LruCache.step maxsize.toNat LruCache.empty (toCall ttl d.started d)).entries⟩ := rfl
    rw [Run.final_cons, hstep, hfinal]
    exact ⟨rfl, rfl⟩

theorem wrapped_fst (maxsize ttl : ℤ) (cs : List (TtlCall α ν ε)) (c : TtlCall α ν ε) :
    (wrapped maxsize ttl (Run.final (step maxsize ttl) empty cs) c).1 =
      (LruCache.call maxsize.toNat (toCall ttl (startOf cs c) c).key c.computed
        (Run.final (LruCache.step maxsize.toNat) LruCache.empty
          (cs.map (toCall ttl (startOf cs c)))).entries).1 := by
  obtain ⟨hkey, hentries⟩ := wrapped_final maxsize ttl cs c
  rw [← hkey, ← hentries]
  rfl

end TtlCache

/-! ### Windows -/

theorem ttlSeconds_pos (ttl : ℤ) : 0 < ttlSeconds ttl := by
  unfold ttlSeconds
  split <;> omega

/-- Two readings in one window are less than its length apart. -/
theorem abs_sub_lt_of_ttlHash {seconds : ℤ} {startTime a b : ℚ} (hseconds : 0 < seconds)
    (h : ttlHash seconds startTime a = ttlHash seconds startTime b) : |a - b| < seconds := by
  have hpos : (0 : ℚ) < seconds := by exact_mod_cast hseconds
  have hlt : |(a - startTime) / seconds - (b - startTime) / seconds| < 1 :=
    Int.abs_sub_lt_one_of_floor_eq_floor h
  rw [← sub_div, sub_sub_sub_cancel_right, abs_div, abs_of_pos hpos, div_lt_one hpos] at hlt
  exact hlt

/-! ### Main results -/

open TtlCache

/-- **A result is younger than `ttl` seconds**: a call of the run, this one or one before it,
computed it for the same arguments less than `ttl` seconds away.  A call fails only if the
function fails in it. -/
theorem ttl_lru_cache_fresh (maxsize ttl : ℤ) (cs : List (TtlCall α ν ε)) (c : TtlCall α ν ε) :
    (∀ v, (wrapped maxsize ttl (Run.final (step maxsize ttl) empty cs) c).1 = .ok v →
      ∃ d ∈ cs ++ [c], d.args = c.args ∧ d.computed = .ok v ∧
        |d.now - c.now| < ttlSeconds ttl) ∧
    ∀ e, (wrapped maxsize ttl (Run.final (step maxsize ttl) empty cs) c).1 = .error e →
      c.computed = .error e := by
  rw [wrapped_fst]
  refine ⟨fun v hv => ?_, fun e he => (LruCache.call_sound _ _ _ _).2.2 e he⟩
  obtain ⟨d', hd', hkey, hcomputed⟩ := LruCache.computed_of_ok hv
  have hd' : d' ∈ (cs ++ [c]).map (toCall ttl (startOf cs c)) := by simpa using hd'
  obtain ⟨d, hd, rfl⟩ := List.mem_map.mp hd'
  obtain ⟨hwindow, hargs⟩ := Prod.mk.inj hkey
  exact ⟨d, hd, hargs, hcomputed, abs_sub_lt_of_ttlHash (ttlSeconds_pos ttl) hwindow⟩

/-- **Within a window the function is not called again** for arguments with a result, while the
calls in between use fewer than `maxsize` other keys. -/
theorem ttl_lru_cache_hit {maxsize ttl : ℤ} {before after : List (TtlCall α ν ε)}
    {d c : TtlCall α ν ε} {v : ν}
    (hd : (wrapped maxsize ttl (Run.final (step maxsize ttl) empty before) d).1 = .ok v)
    (hkey : (toCall ttl (startOf before d) c).key = (toCall ttl (startOf before d) d).key)
    (hfew : (((after.map (toCall ttl (startOf before d))).map
      LruCache.CallOf.key).toFinset.erase (toCall ttl (startOf before d) d).key).card <
        maxsize.toNat) :
    let s := Run.final (step maxsize ttl) empty (before ++ d :: after)
    s.invokes ttl c = false ∧ (wrapped maxsize ttl s c).1 = .ok v := by
  intro s
  have hstart : startOf (before ++ d :: after) c = startOf before d := by
    cases before <;> rfl
  obtain ⟨hskey, hentries⟩ := wrapped_final maxsize ttl (before ++ d :: after) c
  rw [hstart, hkey] at hskey
  rw [hstart, List.map_append, List.map_cons] at hentries
  rw [wrapped_fst] at hd
  have hmem : ((toCall ttl (startOf before d) d).key, v) ∈ s.entries := by
    rw [hentries]
    exact LruCache.mem_of_few hd hfew
  have hnodup : (s.entries.map Prod.fst).Nodup := by
    rw [hentries]
    exact LruCache.nodup_final _ _
  obtain ⟨hcomputes, hcall⟩ := LruCache.call_of_mem (n := maxsize.toNat) hnodup hmem c.computed
  rw [← hskey] at hcomputes hcall
  exact ⟨hcomputes, hcall⟩

/-- A second call a second later, with another one in between, at a moment when the function
would fail. -/
theorem ttl_lru_cache_hit_second :
    let s := Run.final (step 2 6) empty ([] ++ (⟨5, 5, 1, .ok "a"⟩ : TtlCall ℕ String Unit) ::
      [⟨0, 6, 2, .ok "b"⟩])
    s.invokes 6 (⟨0, 7, 1, .error ()⟩ : TtlCall ℕ String Unit) = false ∧
      (wrapped 2 6 s (⟨0, 7, 1, .error ()⟩ : TtlCall ℕ String Unit)).1 = .ok "a" :=
  ttl_lru_cache_hit (by decide +kernel) (by decide +kernel) (by decide +kernel)

/-! ### Names of addresses -/

/-- What `gethostbyaddr` does: a name, `herror`, or another exception. -/
inductive HostByAddr
  | name (hostname : String)
  | herror
  | raises

/-- `resolve_address`. -/
def resolveAddress (address : String) : HostByAddr → Except Unit String
  | .name hostname => .ok hostname
  | .herror => .ok address
  | .raises => .error ()

/-- A trap whose address is resolved, and what the name service would say. -/
structure AddressQuery where
  started : ℚ
  now : ℚ
  address : String
  answer : HostByAddr

/-- The call of the cached `resolve_address`. -/
def AddressQuery.toTtlCall (q : AddressQuery) : TtlCall String String Unit :=
  ⟨q.started, q.now, q.address, resolveAddress q.address q.answer⟩

/-- **The host of a trap is what the name service says about its address**, or said less than
`ttl` seconds away when a trap of the run came from that address.  The address itself is the
host only if the service did not know it. -/
theorem resolve_address_fresh (maxsize ttl : ℤ) (qs : List AddressQuery) (q : AddressQuery) :
    (∀ host, (wrapped maxsize ttl (Run.final (step maxsize ttl) empty
        (qs.map AddressQuery.toTtlCall)) q.toTtlCall).1 = .ok host →
      ∃ r ∈ qs ++ [q], r.address = q.address ∧ |r.now - q.now| < ttlSeconds ttl ∧
        (r.answer = .name host ∨ r.answer = .herror ∧ host = q.address)) ∧
    ∀ e, (wrapped maxsize ttl (Run.final (step maxsize ttl) empty
        (qs.map AddressQuery.toTtlCall)) q.toTtlCall).1 = .error e → q.answer = .raises := by
  obtain ⟨hok, herror⟩ := ttl_lru_cache_fresh maxsize ttl (qs.map AddressQuery.toTtlCall)
    q.toTtlCall
  constructor
  · intro host hhost
    obtain ⟨d, hd, hargs, hcomputed, hlt⟩ := hok host hhost
    have hd : d ∈ (qs ++ [q]).map AddressQuery.toTtlCall := by simpa using hd
    obtain ⟨r, hr, rfl⟩ := List.mem_map.mp hd
    refine ⟨r, hr, hargs, hlt, ?_⟩
    cases hanswer : r.answer with
    | name hostname =>
      rw [AddressQuery.toTtlCall, hanswer] at hcomputed
      exact .inl (congrArg HostByAddr.name (Except.ok.inj hcomputed))
    | herror =>
      rw [AddressQuery.toTtlCall, hanswer] at hcomputed
      exact .inr ⟨rfl, (Except.ok.inj hcomputed).symm.trans hargs⟩
    | raises =>
      rw [AddressQuery.toTtlCall, hanswer] at hcomputed
      cases hcomputed
  · intro e he
    have hcomputed : resolveAddress q.address q.answer = .error e := herror e he
    cases hanswer : q.answer with
    | raises => rfl
    | name hostname =>
      rw [hanswer] at hcomputed
      cases hcomputed
    | herror =>
      rw [hanswer] at hcomputed
      cases hcomputed

end Sc4snmp
