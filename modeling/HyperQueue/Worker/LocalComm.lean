import Mathlib.Data.List.Nodup

/-!
# Worker: local communication tokens

The token registry of `src/crates/tako/src/internal/worker/localcomm.rs`. A worker registers a
token for each task that may use the data layer; the task connects to the worker's unix socket
and sends the token in its first frame, and the worker serves the connection for the task the
token was registered for.

A token is `hq0-` and twelve random alphanumeric characters; `Token` carries that shape as a
field. `register_task` draws tokens until one is not registered: the model takes the draws as
a list, and answers `none` when all of them collide, where the code would draw again.

**Theorem (`checkToken_apply`).** Each operation changes `check_token` as a map from raw token
to registration: a registration maps the first of its draws that is free to the registration
and nothing else; an unregistration unmaps its token and nothing else.

`handle_connection` serves a connection for the task its token is registered for, and fails
with `Invalid token` for a token that is not registered.

**Theorem (`splitDataAccessKey_dataAccessKey`).** The data access key is the socket path, `:`
and the token; the token is what follows the last `:` and the path what precedes it, whatever
the path.

**Theorem (`dataAccessKey_handleConnection`).** End to end: a task registered for the data
layer gets a key; after any operations that do not unregister its token, a peer that connects
to the path of the key and sends its token part is served for that task. Later registrations
never take a registered token over (`Registry.apply_of_mapped`).
-/

namespace HyperQueue

/-- A task's id. -/
abbrev TaskId := Nat

/-- `Registration`: what a token was handed out for. -/
inductive Registration
  | dataConnection (taskId : TaskId)
  deriving DecidableEq, Repr

/-- A character of the `Alphanumeric` distribution: an ASCII letter or digit. -/
abbrev AlphanumericChar := {c : Char // c.isAlphanum}

/-- `new_raw_token`: `hq0-` and twelve random alphanumeric characters. -/
def newRawToken (rnd : Fin 12 → AlphanumericChar) : String :=
  "hq0-" ++ String.mk ((List.finRange 12).map fun i => (rnd i).1)

/-- `Token`: a raw token made by `new_raw_token`. -/
structure Token where
  rawToken : String
  wellFormed : ∃ rnd, rawToken = newRawToken rnd

/-- `Token::new`, with its twelve draws. -/
def Token.new (rnd : Fin 12 → AlphanumericChar) : Token := ⟨newRawToken rnd, rnd, rfl⟩

/-- Tokens are equal when their raw bytes are. -/
theorem Token.ext_iff' {a b : Token} : a = b ↔ a.rawToken = b.rawToken := by
  cases a; cases b
  exact ⟨fun h => by cases h; rfl, fun h => by cases h; rfl⟩

instance : DecidableEq Token := fun _ _ => decidable_of_iff _ Token.ext_iff'.symm

/-- No token holds a `:`. -/
theorem Token.colon_not_mem (t : Token) : ':' ∉ t.rawToken.data := by
  obtain ⟨rnd, h⟩ := t.wellFormed
  rw [h, newRawToken, String.data_append, List.mem_append]
  rintro (hc | hc)
  · revert hc; decide
  · obtain ⟨i, -, hi⟩ := List.mem_map.1 hc
    have := (rnd i).2
    rw [hi] at this
    revert this; decide

/-! ## The registry -/

/-- `LocalCommState`: the socket path and the registered tokens, each at most once. -/
structure LocalCommState where
  unixSocketPath : String
  registeredTokens : List (Token × Registration)
  nodup : (registeredTokens.map (·.1)).Nodup

namespace LocalCommState

/-- `LocalCommState::new`, for the socket path it picked. -/
def new (unixSocketPath : String) : LocalCommState := ⟨unixSocketPath, [], List.nodup_nil⟩

/-- `registered_tokens.contains_key`. -/
def containsKey (st : LocalCommState) (token : Token) : Bool :=
  st.registeredTokens.any (·.1 = token)

/-- `registered_tokens.insert` of a token that is not there. -/
def insertFresh (st : LocalCommState) (token : Token) (registration : Registration)
    (h : st.containsKey token = false) : LocalCommState where
  unixSocketPath := st.unixSocketPath
  registeredTokens := (token, registration) :: st.registeredTokens
  nodup := List.nodup_cons.2 ⟨fun hm => by
    obtain ⟨p, hp, rfl⟩ := List.mem_map.1 hm
    simp only [containsKey, List.any_eq_false] at h
    exact h p hp (decide_eq_true rfl), st.nodup⟩

/-- `register_task`, with the tokens it draws: the first one not registered is inserted. -/
def registerTask (st : LocalCommState) (registration : Registration) :
    List Token → Option (Token × LocalCommState)
  | [] => none
  | token :: tokens =>
    if h : st.containsKey token then st.registerTask registration tokens
    else some (token, st.insertFresh token registration (Bool.eq_false_iff.2 h))

/-- `unregister_token`. -/
def unregisterToken (st : LocalCommState) (token : Token) : LocalCommState where
  unixSocketPath := st.unixSocketPath
  registeredTokens := st.registeredTokens.filter (·.1 ≠ token)
  nodup := st.nodup.sublist ((List.filter_sublist _).map _)

/-- `check_token`: the registration of a raw token. -/
def checkToken (st : LocalCommState) (token : String) : Option Registration :=
  (st.registeredTokens.find? (·.1.rawToken = token)).map (·.2)

/-- `data_access_key`: the socket path, `:` and the token. -/
def dataAccessKey (st : LocalCommState) (token : Token) : String :=
  st.unixSocketPath ++ ":" ++ token.rawToken

/-! ## What `check_token` answers -/

theorem checkToken_eq_none_iff (st : LocalCommState) (s : String) :
    st.checkToken s = none ↔ ∀ p ∈ st.registeredTokens, p.1.rawToken ≠ s := by
  simp [checkToken, List.find?_eq_none]

theorem containsKey_eq_false_iff (st : LocalCommState) (token : Token) :
    st.containsKey token = false ↔ st.checkToken token.rawToken = none := by
  rw [checkToken_eq_none_iff]
  simp only [containsKey, List.any_eq_false, decide_eq_true_eq, Token.ext_iff']

theorem checkToken_insertFresh (st : LocalCommState) (token : Token) (registration : Registration)
    (h : st.containsKey token = false) (s : String) :
    (st.insertFresh token registration h).checkToken s =
      if token.rawToken = s then some registration else st.checkToken s := by
  by_cases hs : token.rawToken = s <;> simp [insertFresh, checkToken, List.find?_cons, hs]

theorem find?_filter_ne (l : List (Token × Registration)) (token : Token) (s : String) :
    ((l.filter (·.1 ≠ token)).find? (·.1.rawToken = s)) =
      if token.rawToken = s then none else l.find? (·.1.rawToken = s) := by
  induction l with
  | nil => split <;> rfl
  | cons p l ih =>
    by_cases hp : p.1 = token
    · rw [List.filter_cons_of_neg (by simp [hp]), ih]
      by_cases hs : token.rawToken = s
      · simp [hs]
      · simp [List.find?_cons, hs, hp]
    · rw [List.filter_cons_of_pos (by simp [hp]), List.find?_cons, List.find?_cons, ih]
      by_cases hs : p.1.rawToken = s
      · have : token.rawToken ≠ s := fun ht => hp (Token.ext_iff'.2 (hs.trans ht.symm))
        simp [hs, this]
      · simp [hs]

theorem checkToken_unregisterToken (st : LocalCommState) (token : Token) (s : String) :
    (st.unregisterToken token).checkToken s =
      if token.rawToken = s then none else st.checkToken s := by
  simp only [unregisterToken, checkToken, find?_filter_ne]
  split <;> rfl

/-- `register_task` fails only when every draw collides. -/
theorem registerTask_eq_none_iff (st : LocalCommState) (registration : Registration)
    (draws : List Token) :
    st.registerTask registration draws = none ↔ ∀ t ∈ draws, st.checkToken t.rawToken ≠ none := by
  induction draws with
  | nil => simp [registerTask]
  | cons t draws ih =>
    rw [List.forall_mem_cons, ← ih]
    by_cases h : st.containsKey t
    · have : st.checkToken t.rawToken ≠ none := fun hn => by
        simp [(containsKey_eq_false_iff _ _).2 hn] at h
      simp [registerTask, h, this]
    · have : st.checkToken t.rawToken = none :=
        (containsKey_eq_false_iff _ _).1 (Bool.eq_false_iff.2 h)
      simp [registerTask, h, this]

/-- `register_task` inserts the first draw that is free, and changes nothing else. -/
theorem registerTask_eq_some (st : LocalCommState) (registration : Registration)
    (draws : List Token) {t : Token} {st' : LocalCommState}
    (h : st.registerTask registration draws = some (t, st')) :
    (∃ pre post, draws = pre ++ t :: post ∧ ∀ u ∈ pre, st.checkToken u.rawToken ≠ none) ∧
    st.checkToken t.rawToken = none ∧ st'.unixSocketPath = st.unixSocketPath ∧
    ∀ s, st'.checkToken s = if t.rawToken = s then some registration else st.checkToken s := by
  induction draws with
  | nil => cases h
  | cons u draws ih =>
    by_cases hu : st.containsKey u
    · rw [registerTask, dif_pos hu] at h
      obtain ⟨⟨pre, post, rfl, hpre⟩, rest⟩ := ih h
      refine ⟨⟨u :: pre, post, rfl, ?_⟩, rest⟩
      rw [List.forall_mem_cons]
      exact ⟨fun hn => by rw [← containsKey_eq_false_iff] at hn; simp [hn] at hu, hpre⟩
    · rw [registerTask, dif_neg hu] at h
      obtain ⟨rfl, rfl⟩ := Prod.mk.inj (Option.some.inj h)
      exact ⟨⟨[], draws, rfl, fun _ h => nomatch h⟩,
        (containsKey_eq_false_iff _ _).1 (Bool.eq_false_iff.2 hu), rfl, checkToken_insertFresh _ _ _ _⟩

/-! ## Runs of the registry, against a map -/

/-- An operation on the registry: a registration with its draws, or an unregistration. -/
inductive Op
  | register (registration : Registration) (draws : List Token)
  | unregister (token : Token)

/-- One operation; a registration whose draws all collide leaves the registry as it is. -/
def apply (st : LocalCommState) : Op → LocalCommState
  | .register registration draws => ((st.registerTask registration draws).map (·.2)).getD st
  | .unregister token => st.unregisterToken token

end LocalCommState

/-- What the registry stands for: the registration of each raw token. -/
abbrev Registry := String → Option Registration

namespace Registry

/-- The first draw whose raw token the map leaves unmapped. -/
def firstFree (m : Registry) : List Token → Option Token
  | [] => none
  | t :: ts => if m t.rawToken = none then some t else firstFree m ts

/-- One operation on the map. -/
def apply (m : Registry) : LocalCommState.Op → Registry
  | .register registration draws =>
    match firstFree m draws with
    | none => m
    | some t => Function.update m t.rawToken (some registration)
  | .unregister token => Function.update m token.rawToken none

theorem firstFree_eq_some {m : Registry} {draws : List Token} {t : Token}
    (hpre : ∃ pre post, draws = pre ++ t :: post ∧ ∀ u ∈ pre, m u.rawToken ≠ none)
    (ht : m t.rawToken = none) : firstFree m draws = some t := by
  obtain ⟨pre, post, rfl, hpre⟩ := hpre
  induction pre with
  | nil => simp [firstFree, ht]
  | cons u pre ih =>
    rw [List.forall_mem_cons] at hpre
    simp [firstFree, hpre.1, ih hpre.2]

theorem firstFree_eq_none {m : Registry} {draws : List Token} (h : ∀ t ∈ draws, m t.rawToken ≠ none) :
    firstFree m draws = none := by
  induction draws with
  | nil => rfl
  | cons t draws ih =>
    rw [List.forall_mem_cons] at h
    simp [firstFree, h.1, ih h.2]

/-- The first free draw is free. -/
theorem firstFree_free {m : Registry} {draws : List Token} {t : Token}
    (h : firstFree m draws = some t) : m t.rawToken = none := by
  induction draws with
  | nil => cases h
  | cons u draws ih =>
    simp only [firstFree] at h
    split at h
    · cases h; assumption
    · exact ih h

/-- An operation leaves a mapped raw token mapped as it was, unless it unregisters that token:
a registration only maps a free token. -/
theorem apply_of_mapped {m : Registry} {s : String} {r : Registration} (hm : m s = some r)
    (op : LocalCommState.Op) (hop : ∀ t, op = .unregister t → t.rawToken ≠ s) :
    m.apply op s = some r := by
  cases op with
  | register registration draws =>
    cases hf : firstFree m draws with
    | none => simpa [apply, hf] using hm
    | some t =>
      have hne : t.rawToken ≠ s := fun he => by
        have := firstFree_free hf
        rw [he, hm] at this
        cases this
      simpa [apply, hf, Function.update_noteq hne.symm] using hm
  | unregister token => rw [apply, Function.update_noteq (hop token rfl).symm, hm]

end Registry

namespace LocalCommState

/-- **One operation.** `check_token` after an operation is the map's answer after it. -/
theorem checkToken_apply (st : LocalCommState) (op : Op) :
    (st.apply op).checkToken = Registry.apply st.checkToken op := by
  funext s
  cases op with
  | unregister token =>
    rw [apply, Registry.apply, checkToken_unregisterToken, Function.update_apply]
    by_cases h : token.rawToken = s
    · simp [h]
    · simp [h, Ne.symm h]
  | register registration draws =>
    cases hr : st.registerTask registration draws with
    | none =>
      rw [apply, hr, Registry.apply,
        Registry.firstFree_eq_none ((registerTask_eq_none_iff _ _ _).1 hr)]
      rfl
    | some p =>
      obtain ⟨t, st'⟩ := p
      obtain ⟨hpre, hfree, -, hcheck⟩ := registerTask_eq_some _ _ _ hr
      rw [apply, hr, Registry.apply, Registry.firstFree_eq_some hpre hfree]
      simp only [Option.map_some', Option.getD_some, hcheck, Function.update_apply]
      by_cases h : t.rawToken = s
      · simp [h]
      · simp [h, Ne.symm h]

/-- **Runs.** Over every run of operations, `check_token` is the map the run builds. -/
theorem checkToken_run (st : LocalCommState) (ops : List Op) :
    (ops.foldl apply st).checkToken = ops.foldl Registry.apply st.checkToken := by
  induction ops generalizing st with
  | nil => rfl
  | cons op ops ih => rw [List.foldl_cons, List.foldl_cons, ih, checkToken_apply]

/-- No operation moves the socket. -/
theorem apply_unixSocketPath (st : LocalCommState) (op : Op) :
    (st.apply op).unixSocketPath = st.unixSocketPath := by
  cases op with
  | unregister token => rfl
  | register registration draws =>
    cases hr : st.registerTask registration draws with
    | none => simp [apply, hr]
    | some p => simpa [apply, hr] using (registerTask_eq_some _ _ _ hr).2.2.1

theorem foldl_apply_unixSocketPath (st : LocalCommState) (ops : List Op) :
    (ops.foldl apply st).unixSocketPath = st.unixSocketPath := by
  induction ops generalizing st with
  | nil => rfl
  | cons op ops ih => rw [List.foldl_cons, ih, apply_unixSocketPath]

/-- A registered raw token keeps its registration over any operations that do not unregister
it. -/
theorem checkToken_foldl_of_mapped (st : LocalCommState) (ops : List Op) {s : String}
    {r : Registration} (hs : st.checkToken s = some r)
    (hops : ∀ t, Op.unregister t ∈ ops → t.rawToken ≠ s) :
    (ops.foldl apply st).checkToken s = some r := by
  induction ops generalizing st with
  | nil => exact hs
  | cons op ops ih =>
    refine ih (st.apply op) ?_ fun t ht => hops t (List.mem_cons_of_mem _ ht)
    rw [checkToken_apply]
    exact Registry.apply_of_mapped hs op fun t ht => hops t (ht ▸ List.mem_cons_self _ _)

/-! ## Connections -/

/-- `IntroMessage`: the first frame of a local connection. -/
structure IntroMessage where
  token : String

/-- `handle_connection` up to the hand-over to the data node: the task it serves, `none` when
the peer closed before its intro, or the error. `intro` is the first frame, decoded. -/
def handleConnection (st : LocalCommState) :
    Option (Except String IntroMessage) → Except String (Option TaskId)
  | none => .ok none
  | some (.error e) => .error e
  | some (.ok message) =>
    match st.checkToken message.token with
    | none => .error "Invalid token"
    | some (.dataConnection taskId) => .ok (some taskId)

/-! ## The data access key -/

end LocalCommState

/-- Split a key at its last `:`: what precedes it and what follows it. -/
def splitDataAccessKey (key : String) : String × String :=
  (String.mk ((key.data.reverse.dropWhile (· != ':')).drop 1).reverse,
    String.mk (key.data.reverse.takeWhile (· != ':')).reverse)

/-- Splitting `path ++ ":" ++ rest` at its last `:` gives `path` and `rest` back when `rest`
holds no `:`, whatever `path` holds. -/
theorem splitDataAccessKey_append (path rest : String) (h : ':' ∉ rest.data) :
    splitDataAccessKey (path ++ ":" ++ rest) = (path, rest) := by
  have hne : ∀ c ∈ rest.data.reverse, (c != ':') = true := by
    intro c hc
    rw [List.mem_reverse] at hc
    rw [bne_iff_ne, ne_eq]
    rintro rfl
    exact h hc
  have hkey : (path ++ ":" ++ rest).data.reverse = rest.data.reverse ++ ':' :: path.data.reverse := by
    simp
  simp only [splitDataAccessKey, hkey, List.dropWhile_append_of_pos hne,
    List.takeWhile_append_of_pos hne]
  simp

/-- **The data access key.** -/
theorem splitDataAccessKey_dataAccessKey (st : LocalCommState) (token : Token) :
    splitDataAccessKey (st.dataAccessKey token) = (st.unixSocketPath, token.rawToken) :=
  splitDataAccessKey_append _ _ token.colon_not_mem

namespace LocalCommState

/-- **The local channel, end to end.** A task registered for the data layer gets a token and
its data access key. After any later operations that do not unregister that token, a peer
that connects to the path before the key's last `:` reaches the worker's socket, and sending
what follows it in its intro message gets it served for that task. -/
theorem dataAccessKey_handleConnection (st : LocalCommState) (taskId : TaskId)
    (draws : List Token) {token : Token} {st' : LocalCommState}
    (h : st.registerTask (.dataConnection taskId) draws = some (token, st')) (ops : List Op)
    (hops : ∀ t, Op.unregister t ∈ ops → t.rawToken ≠ token.rawToken) :
    (splitDataAccessKey (st'.dataAccessKey token)).1 = (ops.foldl apply st').unixSocketPath ∧
      (ops.foldl apply st').handleConnection
        (some (.ok ⟨(splitDataAccessKey (st'.dataAccessKey token)).2⟩)) = .ok (some taskId) := by
  rw [dataAccessKey, splitDataAccessKey_append _ _ token.colon_not_mem,
    foldl_apply_unixSocketPath]
  refine ⟨rfl, ?_⟩
  have hreg : st'.checkToken token.rawToken = some (.dataConnection taskId) := by
    rw [(registerTask_eq_some _ _ _ h).2.2.2, if_pos rfl]
  simp [handleConnection, checkToken_foldl_of_mapped st' ops hreg hops]

/-- Task `7` is registered, then task `8`, whose first draw collides with `7`'s token: the key
of task `7` still reaches task `7`. -/
theorem dataAccessKey_handleConnection_two :
    let tok : Token := .new fun _ => ⟨'a', rfl⟩
    let st := LocalCommState.new "/tmp/hq-lc-1"
    let st' := st.insertFresh tok (.dataConnection 7) rfl
    let ops := [Op.register (.dataConnection 8) [tok, .new fun _ => ⟨'b', rfl⟩]]
    st.registerTask (.dataConnection 7) [tok] = some (tok, st') ∧
      (∀ t, Op.unregister t ∈ ops → t.rawToken ≠ tok.rawToken) ∧
      (splitDataAccessKey (st'.dataAccessKey tok)).1 = (ops.foldl apply st').unixSocketPath ∧
      (ops.foldl apply st').handleConnection
        (some (.ok ⟨(splitDataAccessKey (st'.dataAccessKey tok)).2⟩)) = .ok (some 7) := by
  intro tok st st' ops
  have h : st.registerTask (.dataConnection 7) [tok] = some (tok, st') := rfl
  have hops : ∀ t, Op.unregister t ∈ ops → t.rawToken ≠ tok.rawToken := by
    intro t ht
    simp [ops] at ht
  exact ⟨h, hops, dataAccessKey_handleConnection st 7 [tok] h ops hops⟩

end LocalCommState

end HyperQueue
