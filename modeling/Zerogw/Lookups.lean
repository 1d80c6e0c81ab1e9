import Zerogw.Http.Answers
import Zerogw.Server.Runs

/-!
# Ids received from backends

Seven commands and every reply to an HTTP request begin with an id, which is trusted to say where
its object is. When such a lookup reads only what it may read and finds the object with that id, and
no other.
-/

namespace Zerogw

open Execution

/-- The lookup reads nothing but the frame and the slots, and finds the object named. -/
def Exact {α : Type*} (lookup : Except Fault (Option α)) (Named : α → Prop) : Prop :=
  ∃ o, lookup = .ok o ∧ ∀ a, o = some a ↔ Named a

section

variable {α : Type*} {Named : α → Prop} {o : Option α} {f : Fault}

lemma exact_ok : Exact (.ok o) Named ↔ ∀ a, o = some a ↔ Named a := by
  constructor
  · rintro ⟨o, ⟨⟩, ho⟩
    exact ho
  · exact fun ho => ⟨o, rfl, ho⟩

lemma not_exact_error : ¬ Exact (.error f) Named := by
  rintro ⟨o, ho, -⟩
  cases ho

end

namespace Server

variable {cfg : Config} {env : Env} {s : Server} {h : HybiId} {route : RouteId} {id : Bytes}
  {rest : List Bytes}

/-! ### Backend commands -/

/-- The lookup of a command. -/
def lookup (sized : Bool) (id : Bytes) (s : Server) : Except Fault (Option HybiId) :=
  if sized ∧ id.length ≠ uidLen then .ok none else s.hybiFind id

lemma withConnection_lookup {sized : Bool} {k : HybiId → List Bytes → Except Fault Server}
    (hrest : rest ≠ []) : ∃ act, s.withConnection route sized (id :: rest) k =
      s.lookup sized id >>= fun o => o.elim (.ok s) act := by
  obtain ⟨frame, rest, rfl⟩ := List.exists_cons_of_ne_nil hrest
  refine ⟨fun h => do
    let hybi ← s.deref h
    if hybi.route ≠ route then return s else k h (frame :: rest), ?_⟩
  rw [withConnection, lookup]
  split_ifs
  · rfl
  · cases s.hybiFind id with
    | error f => rfl
    | ok o => cases o <;> rfl

lemma websockProcess_withConnection {c : IdCommand} (hc : c ≠ .disconnect) (frames : List Bytes) :
    ∃ k, websockProcess cfg env route (c.name :: frames) s =
      s.withConnection route c.sized frames k := by
  cases c with
  | subscribe => exact ⟨_, (rfl : _ = s.subscribe cfg route frames)⟩
  | unsubscribe => exact ⟨_, (rfl : _ = s.unsubscribe cfg route frames)⟩
  | send => exact ⟨_, (rfl : _ = s.send cfg env route frames)⟩
  | addOutput => exact ⟨_, (rfl : _ = s.addOutput cfg route frames)⟩
  | delOutput => exact ⟨_, (rfl : _ = s.delOutput route frames)⟩
  | setCookie => exact ⟨_, (rfl : _ = s.setCookie route frames)⟩
  | disconnect => exact absurd rfl hc

/-- A command does nothing without the lookup, and nothing if that finds no connection. -/
lemma websockProcess_lookup (c : IdCommand) (hlooks : c.Looks rest) :
    ∃ act, websockProcess cfg env route (c.name :: id :: rest) s =
      s.lookup c.sized id >>= fun o => o.elim (.ok s) act := by
  by_cases hc : c = .disconnect
  · subst hc
    obtain rfl := hlooks.mp rfl
    refine ⟨fun h => do
      let hybi ← s.deref h
      if hybi.route ≠ route then return s
      else if hybi.type = .comet then s.cometClose cfg env h
      else s.hybiStop h, ?_⟩
    show s.disconnect cfg env route [id] = s.hybiFind id >>= _
    rw [disconnect]
    rcases s.hybiFind id with f | _ | h
    · rfl
    · rfl
    · show s.deref h >>= _ = s.deref h >>= _
      congr 1
      funext hybi
      cases hybi.type <;> rfl
  · obtain ⟨k, hk⟩ := websockProcess_withConnection hc (id :: rest)
    rw [hk]
    exact withConnection_lookup (mt hlooks.mpr hc)

/-- A lookup by the slot number, with or without regard to the length of the id. -/
lemma hybiFind_exact_iff (hs : s.Core cfg) :
    Exact (s.hybiFind id) (fun h => s.Live h ∧ (s.info h).uid = id) ↔
      iidLen + 8 ≤ id.length ∧ uidHole id ≠ cfg.maxWebsockets ∧
        ∀ h, s.sieve.Holds (uidHole id) h →
          uidLen ≤ id.length ∧ (id.length = uidLen ∨ (s.info h).uid ≠ id.take uidLen) := by
  have hnamed : ∀ {g}, s.Live g → (s.info g).uid = id → s.sieve.Holds (uidHole id) g := by
    rintro g hl rfl
    exact hl
  have hlength : ∀ {g}, s.Live g → (s.info g).uid.length = uidLen :=
    fun hl => hs.uids _ (hs.lt_next_of_live hl)
  rw [hybiFind]
  by_cases hshort : id.length < iidLen + 8
  · rw [if_pos hshort]
    exact iff_of_false not_exact_error fun hn => absurd hn.1 (Nat.not_le.mpr hshort)
  · rw [if_neg hshort, and_iff_right (Nat.not_lt.mp hshort), ← hs.size]
    by_cases hmax : uidHole id = s.sieve.max
    · rw [hmax, Sieve.get_max, error_bind]
      exact iff_of_false not_exact_error fun hn => hn.1 rfl
    · rw [and_iff_right hmax]
      obtain ⟨o, hget, ho⟩ := Sieve.get_eq_ok hmax
      rw [hget, ok_bind]
      cases o with
      | none =>
        refine iff_of_true (exact_ok.mpr fun g => iff_of_false (by simp) ?_) fun h hh => ?_
        · rintro ⟨hl, huid⟩
          cases (ho g).mpr (hnamed hl huid)
        · cases (ho h).mpr hh
      | some h =>
        have hh : s.sieve.Holds (uidHole id) h := (ho h).mp rfl
        have hl : s.Live h := hs.live_iff.mpr ⟨_, hh⟩
        have hall : ∀ {p : HybiId → Prop}, (∀ g, s.sieve.Holds (uidHole id) g → p g) ↔ p h :=
          ⟨fun hp => hp h hh, fun hp g hg => hh.unique hg ▸ hp⟩
        simp only [hs.deref_eq (hs.running hl), ok_bind]
        rw [hall]
        by_cases hlen : id.length < uidLen
        · rw [if_pos hlen]
          exact iff_of_false not_exact_error fun hn => absurd hn.1 (Nat.not_le.mpr hlen)
        · rw [if_neg hlen, and_iff_right (Nat.not_lt.mp hlen)]
          by_cases huid : (s.info h).uid = id.take uidLen
          · rw [if_pos huid, or_iff_left (not_not.mpr huid)]
            refine exact_ok.trans ⟨fun hex => ?_, fun heq g => ⟨?_, fun hg => ?_⟩⟩
            · obtain ⟨-, hid⟩ := (hex h).mp rfl
              rw [← hid, hlength hl]
            · rintro ⟨⟩
              exact ⟨hl, huid.trans (List.take_of_length_le heq.le)⟩
            · exact congrArg some (hh.unique (hnamed hg.1 hg.2))
          · rw [if_neg huid]
            refine iff_of_true (exact_ok.mpr fun g => iff_of_false (by simp) ?_) (Or.inr huid)
            rintro ⟨hg, hid⟩
            obtain rfl := hh.unique (hnamed hg hid)
            refine huid (hid.trans (List.take_of_length_le ?_).symm)
            rw [← hid, hlength hg]

/-- What an id must be like for the lookup of a command to be exact. -/
def Proper (cfg : Config) (s : Server) (c : IdCommand) (id : Bytes) : Prop :=
  if c.sized then id.length ≠ uidLen ∨ uidHole id ≠ cfg.maxWebsockets
  else iidLen + 8 ≤ id.length ∧ uidHole id ≠ cfg.maxWebsockets ∧
    ∀ h, s.sieve.Holds (uidHole id) h →
      uidLen ≤ id.length ∧ (id.length = uidLen ∨ (s.info h).uid ≠ id.take uidLen)

lemma lookup_exact_iff (hs : s.Core cfg) (c : IdCommand) :
    Exact (s.lookup c.sized id) (fun h => s.Live h ∧ (s.info h).uid = id) ↔ Proper cfg s c id := by
  rw [lookup, Proper]
  by_cases hsized : c.sized = true
  · rw [if_pos hsized]
    by_cases hlen : id.length = uidLen
    · rw [if_neg (fun hn => hn.2 hlen), hybiFind_exact_iff hs, or_iff_right (not_not.mpr hlen),
        hlen]
      refine ⟨fun hp => hp.2.1, fun hmax => ⟨by decide, hmax, fun _ _ => ⟨le_rfl, Or.inl rfl⟩⟩⟩
    · rw [if_pos ⟨hsized, hlen⟩]
      refine iff_of_true (exact_ok.mpr fun g => iff_of_false (by simp) ?_) (Or.inl hlen)
      rintro ⟨hl, rfl⟩
      exact hlen (hs.uids g (hs.lt_next_of_live hl))
  · rw [if_neg hsized, if_neg fun hn => hsized hn.1]
    exact hybiFind_exact_iff hs

end Server

namespace Http

variable {cfg : HttpConfig} {H : Http} {id : Bytes}

/-! ### Replies to HTTP requests -/

/-- The lookup of `http_process`. -/
def lookup (id : Bytes) (H : Http) : Except Fault (Option ReqId) :=
  if id.length ≠ uidLen then .ok none else H.find id

/-- A reply that names no request may be counted, but does nothing else. -/
lemma httpProcess_lookup (route : RouteId) (part : Bytes) (rest : List Bytes) :
    ∃ orphans act, H.httpProcess cfg route (id :: part :: rest) =
      H.lookup id >>= fun o => o.elim (.ok { H with orphans := orphans }) act := by
  rw [lookup]
  unfold httpProcess
  dsimp only
  by_cases hlen : id.length ≠ uidLen
  · rw [if_pos hlen, if_pos hlen]
    exact ⟨H.orphans, fun _ => .ok H, rfl⟩
  · rw [if_neg hlen, if_neg hlen]
    cases H.find id with
    | error f => exact ⟨H.orphans, fun _ => .ok H, rfl⟩
    | ok o =>
      cases o with
      | none => exact ⟨H.orphans + 1, fun _ => .ok H, rfl⟩
      | some r => exact ⟨H.orphans, fun _ => _, rfl⟩

lemma lookup_exact_iff (hs : H.Sound cfg) :
    Exact (H.lookup id) (fun r => (H.request r).inSieve = true ∧ H.requests.uid r = id) ↔
      id.length ≠ uidLen ∨ uidHole id ≠ cfg.maxRequests := by
  rw [lookup]
  by_cases hlen : id.length = uidLen
  · rw [if_neg (not_not.mpr hlen), or_iff_right (not_not.mpr hlen), ← hs.registry.max]
    by_cases hmax : uidHole id = H.requests.sieve.max
    · rw [find, hmax, Sieve.get_max, error_bind]
      exact iff_of_false not_exact_error fun hn => hn rfl
    · obtain ⟨o, hfind, ho⟩ := find_eq_ok hs hmax
      rw [hfind]
      exact iff_of_true (exact_ok.mpr ho) hmax
  · rw [if_pos hlen]
    refine iff_of_true (exact_ok.mpr fun r => iff_of_false (by simp) ?_) (Or.inl hlen)
    rintro ⟨hin, rfl⟩
    obtain ⟨k, hk⟩ := (hs.sieve r).mp hin
    exact hlen (hs.lengths _ r (Registry.mem_issued_of_stays (hs.registry.named k r hk).2))

end Http

/-! ### Reachable states -/

/-- In every reachable state, a command or a reply looks up exactly the object its id names, except
for these ids: with a length check, those of full length whose slot number is the size of the sieve;
without one, those whose slot number is missing or is the size of the sieve, and those that lead to
a connection and are too short for a comparison or continue the id of that connection. -/
theorem lookups_exact_iff {cfg : Config} {conf : HttpConfig} {s : Server} {H : Http}
    (hs : Reachable (Server.step cfg) (Server.init cfg) s)
    (hH : Reachable (Http.step conf) (Http.init conf) H) (id : Bytes) :
    (∀ c : Server.IdCommand,
      (∀ env route rest, c.Looks rest → ∃ act,
        s.websockProcess cfg env route (c.name :: id :: rest) =
        s.lookup c.sized id >>= fun o => o.elim (.ok s) act) ∧
      (Exact (s.lookup c.sized id) (fun h => s.Live h ∧ (s.info h).uid = id) ↔
        Server.Proper cfg s c id)) ∧
    (∀ route part rest, ∃ orphans act, H.httpProcess conf route (id :: part :: rest) =
      H.lookup id >>= fun o => o.elim (.ok { H with orphans := orphans }) act) ∧
    (Exact (H.lookup id) (fun r => (H.request r).inSieve = true ∧ H.requests.uid r = id) ↔
      id.length ≠ uidLen ∨ uidHole id ≠ conf.maxRequests) := by
  refine ⟨fun c => ⟨fun env route rest hlooks => Server.websockProcess_lookup c hlooks, ?_⟩,
    fun route part rest => Http.httpProcess_lookup route part rest, ?_⟩
  · exact Server.lookup_exact_iff (Server.sound_of_reachable hs).core c
  · exact Http.lookup_exact_iff (Http.sound_of_reachable hH)

/-- What an exact lookup finds. -/
lemma Exact.eq_some {α : Type*} {lookup : Except Fault (Option α)} {Named : α → Prop} {a : α}
    (hexact : Exact lookup Named) (ha : Named a) : lookup = .ok (some a) := by
  obtain ⟨o, rfl, ho⟩ := hexact
  rw [(ho a).mpr ha]

/-- Two websockets are open, one of them subscribed to a topic, and an HTTP request waits for its
reply: a command and a reply find what they name. -/
theorem lookups_exact_iff_open : ∃ (s : Server) (H : Http),
    s.Live 0 ∧ s.Live 1 ∧ (s.topics.sub.get 0).isSome = true ∧
      (H.request 0).inSieve = true ∧
      s.lookup Server.IdCommand.send.sized Server.secondUid = .ok (some 1) ∧
      H.lookup (List.replicate 40 0) = .ok (some 0) := by
  obtain ⟨s, hs, hview⟩ := Server.exists_of_small_run (C := fun _ _ => True)
    [⟨.websockStart 0, Server.stalledEnv⟩, ⟨.websockStart 0, Server.stalledEnv⟩,
      ⟨.command 0 [str "subscribe", Server.firstUid, str "news"], Server.stalledEnv⟩]
    (fun s => (decide (s.Live 0), decide (s.Live 1), (s.topics.sub.get 0).isSome,
      (s.info 1).uid))
    (true, true, true, Server.secondUid) (fun _ _ _ => trivial) rfl
  obtain ⟨H, hH, hview'⟩ := Http.exists_of_gateway_run [Http.arrives]
    (fun H => ((H.request 0).inSieve, H.requests.uid 0)) (true, List.replicate 40 0) rfl
  simp only [Prod.mk.injEq, decide_eq_true_eq] at hview hview'
  obtain ⟨hfirst, hsecond, htopic, huid⟩ := hview
  obtain ⟨hin, hid⟩ := hview'
  obtain ⟨hcommands, -, -⟩ := lookups_exact_iff hs hH Server.secondUid
  obtain ⟨-, -, hreplies⟩ := lookups_exact_iff hs hH (List.replicate 40 0)
  refine ⟨s, H, hfirst, hsecond, htopic, hin, ?_, ?_⟩
  · refine ((hcommands .send).2.mpr ⟨by decide, by decide, fun h _ => ?_⟩).eq_some ⟨hsecond, huid⟩
    exact ⟨by decide, Or.inl (by decide)⟩
  · exact (hreplies.mpr (Or.inr (by decide))).eq_some ⟨hin, hid⟩

/-- The id names the slot behind the last one, and any command looks there. -/
theorem lookup_behind_slots :
    ¬ ∀ (cfg : Config) (s : Server), Reachable (Server.step cfg) (Server.init cfg) s →
      ∀ (c : Server.IdCommand) (id : Bytes),
        Exact (s.lookup c.sized id) fun h => s.Live h ∧ (s.info h).uid = id := by
  intro hall
  have hexact := hall Server.smallConfig _ .init .subscribe
    (List.replicate 16 0 ++ le64 4 ++ List.replicate 16 0)
  have hlookup : (Server.init Server.smallConfig).lookup Server.IdCommand.subscribe.sized
    (List.replicate 16 0 ++ le64 4 ++ List.replicate 16 0) = .error .outOfBounds := rfl
  rw [hlookup] at hexact
  exact not_exact_error hexact

end Zerogw
