import Mathlib.Algebra.Group.Nat.Defs
import Mathlib.Data.List.Nodup
import VoxelServer.Proofs.Session.Admission
import VoxelServer.Session.Network

/-!
# How many are online

A server counts its players while their sessions come, log in, and go:

* `Hosted.Accounts`: what happens to a session is what happens to the count;
* `Hosted.Seats`: a session keeps its player or gets one, with the server's next number;
* `Happening`, `Network.run`: what can happen to a server's connections, in any order;
* `Network.Counted`, `Network.Settled`: what every run keeps;
* `online_is_player_count`: the server counts the sessions that have a player, these are the ones
  that play, there are never too many, and no two have the same number.
-/

namespace VoxelServer

/-! ## One session -/

/-- Who plays has a player, and nobody else. -/
def Session.Manned (s : Session) : Prop := s.player.isSome = true ↔ s.state = .play

/-- How many players a session has. -/
def Session.players (s : Session) : Nat := if s.player.isSome then 1 else 0

namespace Hosted

variable {a b h h' : Hosted}

/-- The server counts what happens to the session's player. -/
def Accounts (h h' : Hosted) : Prop :=
  h'.server.online + h.session.players = h.server.online + h'.session.players

/-- What happens to the player of a session. -/
inductive Seats (h h' : Hosted) : Prop
  | kept (player : h'.session.player.map (·.identity) = h.session.player.map (·.identity))
      (online : h'.server.online = h.server.online)
      (next : h'.server.nextEntityId = h.server.nextEntityId)
  | taken {player : Player} (free : h.session.player = none)
      (seated : h'.session.player = some player)
      (number : player.entityId = h.server.nextEntityId)
      (next : h'.server.nextEntityId = h.server.nextEntityId + 1)
      (online : h'.server.online = h.server.online + 1)
      (room : h.server.online < h.server.config.maxPlayers)

/-- What the bytes of a client do to the count. -/
structure Tracks (h h' : Hosted) : Prop where
  config : h'.server.config = h.server.config
  accounts : h.Accounts h'
  manned : h.session.Manned → h'.session.Manned
  seats : h.session.Manned → h.Seats h'

theorem players_of_identity {s t : Session}
    (same : t.player.map (·.identity) = s.player.map (·.identity)) : t.players = s.players := by
  have some : t.player.isSome = s.player.isSome := by
    rw [← Option.isSome_map, same, Option.isSome_map]
  rw [Session.players, Session.players, some]

theorem Stays.tracks (stays : h.Stays h') : h.Tracks h' where
  config := stays.server.config
  accounts := by rw [Accounts, stays.server.online, players_of_identity stays.player]
  manned manned := by
    unfold Session.Manned at *
    rw [stays.state, ← manned, ← Option.isSome_map, stays.player, Option.isSome_map]
  seats _ := .kept stays.player stays.server.online stays.server.nextEntityId

theorem Tracks.refl (h : Hosted) : h.Tracks h := (Stays.refl h).tracks

theorem Seats.trans {a b c : Hosted} (config : b.server.config = a.server.config)
    (first : a.Seats b) (second : b.Seats c) : a.Seats c := by
  cases first with
  | kept player online next =>
    cases second with
    | kept player' online' next' =>
      exact .kept (player'.trans player) (online'.trans online) (next'.trans next)
    | taken free seated number next' online' room =>
      have free : a.session.player = none := by simpa [free] using player.symm
      rw [online, next, config] at *
      exact .taken free seated number next' online' room
  | taken free seated number next online room =>
    cases second with
    | kept player' online' next' =>
      obtain ⟨player', seated', same⟩ : ∃ p, c.session.player = some p ∧ p.identity = _ :=
        Option.map_eq_some_iff.mp (player'.trans (congrArg _ seated))
      have number' : player'.entityId = a.server.nextEntityId :=
        (congrArg (·.2.2) same).trans number
      exact .taken free seated' number' (next'.trans next) (online'.trans online) room
    | taken free' => cases seated.symm.trans free'

theorem Tracks.trans {a b c : Hosted} (first : a.Tracks b) (second : b.Tracks c) : a.Tracks c where
  config := second.config.trans first.config
  accounts := by
    have counted := first.accounts
    have counted' := second.accounts
    unfold Accounts at *
    omega
  manned := second.manned ∘ first.manned
  seats manned := .trans first.config (first.seats manned) (second.seats (first.manned manned))

/-- Whatever a payload does, the server keeps count. -/
theorem Dispatched.tracks {result : Except Disconnection Unit} (h : Dispatched a result b) :
    a.Tracks b := by
  cases h with
  | refused e => exact .refl a
  | stayed _ stays => exact stays.tracks
  | opened new asked version =>
    refine ⟨rfl, rfl, fun manned => ?_, fun _ => .kept rfl rfl rfl⟩
    unfold Session.Manned at *
    obtain rfl | rfl := asked <;> simpa [new] using manned
  | @admitted name payloads _ waiting room fine short greeting admits =>
    refine ⟨admits.config, ?_, fun _ => ?_, fun manned => ?_⟩
    · rw [Accounts, admits.online, Session.players, Session.players, admits.player]
      cases a.session.player <;> simp
    · rw [Session.Manned, admits.player, admits.state]
      simp
    · unfold Session.Manned at manned
      have free : a.session.player = none := by simpa [waiting] using manned
      refine .taken free admits.player rfl admits.nextEntityId ?_ ?_
      · rw [admits.online, free]
        rfl
      · simpa [Server.isFull] using room

theorem tracks_consume (h : Hosted) (buffer : Bytes) :
    h.Tracks (consume Protocols.game h buffer).2.1 :=
  consume_within .refl .trans (fun payload h => (h.dispatched payload).tracks)
    (fun h e => (Stays.fail h e).tracks) h buffer

end Hosted

/-! ## All sessions -/

/-- What can happen to the connections of a server. -/
inductive Happening
  | accept
  | receive (i : Nat) (bytes : Bytes)
  | tick (i now : Nat)
  | leave (i : Nat)
  /-- A session is given a player without a login. -/
  | join (i : Nat) (player : Player)

def Happening.isJoin : Happening → Bool
  | join _ _ => true
  | _ => false

namespace Network

/-- Something happens to a session, if it is still there. -/
def attend (n : Network) (i : Nat) (f : Hosted → Hosted) : Network :=
  match n.connection? i with
  | none => n
  | some c =>
    let h := f ⟨c.session, n.server⟩
    ⟨h.server, n.connections.set i (some { c with session := h.session })⟩

def happen (n : Network) : Happening → Network
  | .accept => n.accept
  | .receive i bytes => n.receive Protocols.game i bytes
  | .tick i now => n.attend i fun h =>
    { h with session := (h.session.tick gameOutbound h.server.config now).2 }
  | .leave i => n.leave i
  | .join i player => n.attend i (·.join player)

def run (n : Network) (happenings : List Happening) : Network := happenings.foldl happen n

def player? (n : Network) (i : Nat) : Option Player :=
  (n.connection? i).bind (·.session.player)

/-- How many sessions have a player. -/
def playerCount (n : Network) : Nat :=
  n.connections.countP fun c => c.any (·.session.player.isSome)

/-- The number that a player of a session gets, if it had none. -/
def gained (i : Nat) : Option Player → Option Player → List (Nat × Int32)
  | none, some player => [(i, player.entityId)]
  | _, _ => []

/-- The session whose bytes log in a player, and the player's number. -/
def admitted (n : Network) : Happening → List (Nat × Int32)
  | .receive i bytes => gained i (n.player? i) ((n.receive Protocols.game i bytes).player? i)
  | _ => []

/-- The logins of a run, in order. -/
def admissions (n : Network) : List Happening → List (Nat × Int32)
  | [] => []
  | a :: happenings => n.admitted a ++ (n.happen a).admissions happenings

variable {n : Network} {i : Nat} {c : Connection}

/-! ### One connection -/

theorem lt_of_connection? (known : n.connection? i = some c) : i < n.connections.length := by
  rw [connection?, Option.join_eq_some_iff] at known
  exact (List.getElem?_eq_some_iff.mp known).1

theorem connection?_set (known : n.connection? i = some c) (server : Server)
    (x : Option Connection) (j : Nat) :
    (Network.mk server (n.connections.set i x)).connection? j =
      if i = j then x else n.connection? j := by
  unfold connection?
  rw [List.getElem?_set]
  split
  · rw [if_pos (lt_of_connection? known)]
    rfl
  · rfl

theorem playerCount_set (known : n.connection? i = some c) (server : Server)
    (x : Option Connection) :
    (Network.mk server (n.connections.set i x)).playerCount + c.session.players =
      n.playerCount + x.elim 0 (·.session.players) := by
  have inside := lt_of_connection? known
  have here : n.connections[i] = some c := by
    rw [connection?, List.getElem?_eq_getElem inside] at known
    exact known
  have counted :=
    List.boole_getElem_le_countP (p := fun c => c.any (·.session.player.isSome)) inside
  unfold playerCount
  rw [List.countP_set inside]
  rw [here] at counted ⊢
  have before : (if (some c).any (·.session.player.isSome) = true then 1 else 0) =
    c.session.players := rfl
  have after : (if x.any (·.session.player.isSome) = true then 1 else 0) =
      x.elim 0 (·.session.players) := by
    cases x <;> rfl
  rw [before] at counted ⊢
  rw [after]
  omega

/-! ### The count -/

/-- The server counts the sessions that have a player. -/
def Counted (n : Network) : Prop := n.server.online = n.playerCount

theorem counted_set (counted : n.Counted) (known : n.connection? i = some c) {c' : Connection}
    {server : Server} (accounts : Hosted.Accounts ⟨c.session, n.server⟩ ⟨c'.session, server⟩) :
    (Network.mk server (n.connections.set i (some c'))).Counted := by
  have players := playerCount_set known server (some c')
  have online : server.online + c.session.players = n.server.online + c'.session.players := accounts
  unfold Counted at *
  dsimp only [Option.elim_some] at players ⊢
  omega

/-- Who leaves was counted. -/
theorem players_le_online (counted : n.Counted) (known : n.connection? i = some c) :
    c.session.players ≤ n.server.online := by
  have players := playerCount_set known n.server none
  unfold Counted at counted
  dsimp only [Option.elim_none] at players
  omega

theorem online_leave (known : n.connection? i = some c) :
    (n.leave i).server.online = n.server.online - c.session.players := by
  rw [leave, known]
  unfold Hosted.leave Session.players
  dsimp only
  split <;> rfl

theorem counted_attend (counted : n.Counted) {f : Hosted → Hosted}
    (accounts : ∀ h : Hosted, h.Accounts (f h)) : (n.attend i f).Counted := by
  unfold attend
  split
  · exact counted
  · rename_i known
    exact counted_set counted known (accounts _)

theorem counted_happen (counted : n.Counted) (a : Happening) : (n.happen a).Counted := by
  cases a with
  | accept =>
    have counted : n.server.online = n.playerCount := counted
    show n.server.online = (n.connections ++ [_]).countP _
    rw [List.countP_append, counted]
    rfl
  | receive i bytes =>
    rw [happen, receive]
    split
    · exact counted
    · rename_i c known
      exact counted_set counted known
        (Hosted.tracks_consume ⟨c.session, n.server⟩ (c.inbound ++ bytes)).accounts
  | tick i now => exact counted_attend counted fun h => (Hosted.Stays.tick h now).tracks.accounts
  | join i player =>
    refine counted_attend counted fun h => ?_
    rw [Hosted.Accounts, Hosted.server_join]
    unfold Session.players Hosted.join
    cases h.session.player <;> simp
  | leave i =>
    cases known : n.connection? i with
    | none =>
      rw [happen, leave, known]
      exact counted
    | some c =>
      have enough := players_le_online counted known
      have online := online_leave known
      have players := playerCount_set known (n.leave i).server none
      have left : n.leave i = ⟨(n.leave i).server, n.connections.set i none⟩ := by
        rw [leave, known]
      rw [← left] at players
      unfold Counted at *
      dsimp only [Option.elim_none, happen] at players ⊢
      omega

/-! ### Places and numbers -/

/-- Without players from elsewhere: who plays has a player, there are not too many, and the numbers
that players get are those of the logins, counted from 1. -/
structure Settled (config : Config) (logins : List (Nat × Int32)) (n : Network) : Prop where
  settings : n.server.config = config
  manned : ∀ i c, n.connection? i = some c → c.session.Manned
  room : n.server.online ≤ config.maxPlayers
  numbers : logins.map (·.2) = (List.range' 1 logins.length).map Int32.ofNat
  next : n.server.nextEntityId = Int32.ofNat (logins.length + 1)
  seated : ∀ i player, n.player? i = some player → (i, player.entityId) ∈ logins

variable {config : Config} {logins : List (Nat × Int32)}

theorem player?_of_known (known : n.connection? i = some c) : n.player? i = c.session.player := by
  rw [player?, known]
  rfl

theorem player?_set (known : n.connection? i = some c) (server : Server) (x : Option Connection)
    (j : Nat) :
    (Network.mk server (n.connections.set i x)).player? j =
      if i = j then x.bind (·.session.player) else n.player? j := by
  rw [player?, connection?_set known]
  split <;> rfl

theorem gained_of_identity {before after : Option Player}
    (same : after.map (·.identity) = before.map (·.identity)) (i : Nat) :
    gained i before after = [] := by
  cases before with
  | some player => rfl
  | none =>
    obtain rfl : after = none := by simpa using same
    rfl

theorem settled_set (settled : n.Settled config logins) (known : n.connection? i = some c)
    (c' : Connection) {server : Server}
    (tracks : Hosted.Tracks ⟨c.session, n.server⟩ ⟨c'.session, server⟩) :
    (Network.mk server (n.connections.set i (some c'))).Settled config
      (logins ++ gained i c.session.player c'.session.player) := by
  have manned : c.session.Manned := settled.manned i c known
  have others : ∀ j d, (Network.mk server (n.connections.set i (some c'))).connection? j = some d →
      d.session.Manned := by
    intro j d found
    rw [connection?_set known] at found
    split at found
    · cases found
      exact tracks.manned manned
    · exact settled.manned j d found
  have settings := tracks.config.trans settled.settings
  have here := player?_of_known known
  cases tracks.seats manned with
  | kept player online next =>
    rw [gained_of_identity player, List.append_nil]
    refine ⟨settings, others, ?_, settled.numbers, next.trans settled.next, fun j p found => ?_⟩
    · rw [online]
      exact settled.room
    · rw [player?_set known] at found
      split at found
      · rename_i moved
        obtain ⟨old, before, same⟩ : ∃ old, c.session.player = some old ∧ old.identity = _ :=
          Option.map_eq_some_iff.mp (player.symm.trans (congrArg _ found))
        have number : old.entityId = p.entityId := congrArg (·.2.2) same
        rw [← number, ← moved]
        exact settled.seated i old (here.trans before)
      · exact settled.seated j p found
  | @taken p free seated number next online room =>
    have number : p.entityId = Int32.ofNat (1 + logins.length) := by
      rw [number, settled.next, Nat.add_comm]
    have added : gained i c.session.player c'.session.player = [(i, p.entityId)] := by
      rw [free, seated]
      rfl
    rw [added]
    refine ⟨settings, others, ?_, ?_, ?_, fun j q found => ?_⟩
    · rw [online]
      rw [settled.settings] at room
      exact room
    · rw [List.map_append, settled.numbers, List.length_append, List.length_singleton,
        List.range'_1_concat, List.map_append, List.map_singleton, List.map_singleton, number]
    · rw [next, settled.next, List.length_append, List.length_singleton]
      exact (Int32.ofNat_add _ 1).symm
    · rw [player?_set known] at found
      split at found
      · rename_i moved
        obtain rfl : p = q := Option.some.inj (seated.symm.trans found)
        rw [moved]
        exact List.mem_append_right _ List.mem_cons_self
      · exact List.mem_append_left _ (settled.seated j q found)

theorem settled_accept (settled : n.Settled config logins) : n.accept.Settled config logins := by
  have found : ∀ j c, n.accept.connection? j = some c →
      n.connection? j = some c ∨ c = .start n.server.config Zlib.deflate := by
    intro j c known
    rw [connection?, accept, List.getElem?_append] at known
    split at known
    · exact .inl known
    · rw [List.getElem?_singleton] at known
      split at known
      · exact .inr (Option.some.inj known).symm
      · cases known
  refine ⟨settled.settings, fun j c known => ?_, settled.room, settled.numbers, settled.next,
    fun j player known => ?_⟩
  · obtain old | rfl := found j c known
    · exact settled.manned j c old
    · simp [Session.Manned, Connection.start, Session.start]
  · obtain ⟨c, known, seated⟩ := Option.bind_eq_some_iff.mp known
    obtain old | rfl := found j c known
    · exact settled.seated j player ((player?_of_known old).trans seated)
    · cases seated

theorem settled_leave (settled : n.Settled config logins) (i : Nat) :
    (n.leave i).Settled config logins := by
  cases known : n.connection? i with
  | none =>
    rw [leave, known]
    exact settled
  | some c =>
    have left : n.leave i = ⟨Hosted.leave ⟨c.session, n.server⟩, n.connections.set i none⟩ := by
      rw [leave, known]
    have fewer := online_leave known
    have next : (n.leave i).server.nextEntityId = n.server.nextEntityId := by
      rw [left]
      unfold Hosted.leave
      dsimp only
      split <;> rfl
    have settings : (n.leave i).server.config = n.server.config := by
      rw [left]
      unfold Hosted.leave
      dsimp only
      split <;> rfl
    refine ⟨settings.trans settled.settings, fun j d found => ?_, ?_, settled.numbers,
      next.trans settled.next, fun j player found => ?_⟩
    · rw [left, connection?_set known] at found
      split at found
      · cases found
      · exact settled.manned j d found
    · have room := settled.room
      omega
    · rw [left, player?_set known] at found
      split at found
      · cases found
      · exact settled.seated j player found

theorem settled_happen (settled : n.Settled config logins) {a : Happening}
    (login : a.isJoin = false) : (n.happen a).Settled config (logins ++ n.admitted a) := by
  cases a with
  | join i player => cases login
  | accept =>
    rw [show n.admitted .accept = [] from rfl, List.append_nil]
    exact settled_accept settled
  | leave i =>
    rw [show n.admitted (.leave i) = [] from rfl, List.append_nil]
    exact settled_leave settled i
  | receive i bytes =>
    cases known : n.connection? i with
    | none =>
      have same : n.receive Protocols.game i bytes = n := by rw [receive, known]
      rw [happen, admitted, same, gained_of_identity rfl, List.append_nil]
      exact settled
    | some c =>
      let received := c.receive Protocols.game n.server bytes
      have same : n.receive Protocols.game i bytes =
          ⟨received.2.2, n.connections.set i (some received.2.1)⟩ := by
        rw [receive, known]
        rfl
      have tracks : Hosted.Tracks ⟨c.session, n.server⟩ ⟨received.2.1.session, received.2.2⟩ :=
        Hosted.tracks_consume ⟨c.session, n.server⟩ (c.inbound ++ bytes)
      rw [happen, admitted, same, player?_of_known known, player?_set known, if_pos rfl]
      exact settled_set settled known received.2.1 tracks
  | tick i now =>
    rw [show n.admitted (.tick i now) = [] from rfl, List.append_nil, happen, attend]
    split
    · exact settled
    · rename_i c known
      have stays := Hosted.Stays.tick ⟨c.session, n.server⟩ now
      have next := settled_set settled known ⟨_, c.inbound⟩ stays.tracks
      rw [gained_of_identity stays.player, List.append_nil] at next
      exact next

theorem settled_run (settled : n.Settled config logins) {happenings : List Happening}
    (fine : ∀ a ∈ happenings, a.isJoin = false) :
    (n.run happenings).Settled config (logins ++ n.admissions happenings) := by
  induction happenings generalizing n logins with
  | nil =>
    rw [admissions, List.append_nil]
    exact settled
  | cons a happenings ih =>
    obtain ⟨login, rest⟩ := List.forall_mem_cons.mp fine
    rw [admissions, ← List.append_assoc]
    exact ih (settled_happen settled login) rest

theorem counted_start (config : Config) (listeners : Listeners) :
    (start config listeners).Counted := rfl

theorem counted_run (counted : n.Counted) (happenings : List Happening) :
    (n.run happenings).Counted := by
  induction happenings generalizing n with
  | nil => exact counted
  | cons a happenings ih => exact ih (counted_happen counted a)

theorem settled_start (config : Config) (listeners : Listeners) :
    (start config listeners).Settled config [] :=
  ⟨rfl, by simp [connection?, start], Nat.zero_le _, rfl, rfl,
    by simp [player?, connection?, start]⟩

end Network

/-- Numbers that are counted from 1 differ, as long as they fit. -/
theorem nodup_numbers {count : Nat} (few : count < 2 ^ 32) :
    ((List.range' 1 count).map Int32.ofNat).Nodup := by
  refine List.Nodup.map_on (fun a ha b hb same => ?_) (List.nodup_range' 1)
  rw [List.mem_range'_1] at ha hb
  have same := congrArg (·.toUInt32.toNat) same
  simp only [Int32.toUInt32_ofNat', UInt32.toNat_ofNat', Nat.reducePow] at same
  omega

/-- **The server counts its players.** Whatever connections do, in any order, it counts the
sessions that have a player, and whoever leaves was counted. If all players log in, the sessions
that have one are those that play, there are never more than the server takes, and the numbers that
players get are all different, until they run out. -/
theorem online_is_player_count (config : Config) (listeners : Listeners)
    (happenings : List Happening) :
    let start := Network.start config listeners
    let n := start.run happenings
    let numbers := (start.admissions happenings).map (·.2)
    n.server.online = n.playerCount ∧
    (∀ i player, n.player? i = some player →
      (n.happen (.leave i)).server.online + 1 = n.server.online) ∧
    ((∀ a ∈ happenings, a.isJoin = false) →
      (∀ i c, n.connection? i = some c →
        (c.session.player.isSome = true ↔ c.session.state = .play)) ∧
      n.server.online ≤ config.maxPlayers ∧
      n.server.nextEntityId = Int32.ofNat (numbers.length + 1) ∧
      (∀ i player, n.player? i = some player →
        (i, player.entityId) ∈ start.admissions happenings) ∧
      (numbers.length < 2 ^ 32 → numbers.Nodup)) := by
  intro start n numbers
  have counted : n.Counted :=
    Network.counted_run (Network.counted_start config listeners) happenings
  refine ⟨counted, fun i player seated => ?_, fun fine => ?_⟩
  · obtain ⟨c, known, here⟩ := Option.bind_eq_some_iff.mp seated
    have enough := Network.players_le_online counted known
    have one : c.session.players = 1 := by rw [Session.players, here]; rfl
    rw [Network.happen, Network.online_leave known]
    omega
  · have settled : n.Settled config (start.admissions happenings) :=
      Network.settled_run (Network.settled_start config listeners) fine
    have length : numbers.length = (start.admissions happenings).length := List.length_map _
    refine ⟨settled.manned, settled.room, ?_, settled.seated, fun few => ?_⟩
    · rw [length]
      exact settled.next
    · rw [length] at few
      show ((start.admissions happenings).map (·.2)).Nodup
      rw [settled.numbers]
      exact nodup_numbers few

/-- Two clients log in as Steve, a third one finds the server full, and the first one leaves. -/
def Happening.threeLogins : List Happening :=
  let steve : Bytes := [16, 0, 210, 1, 9, 108, 111, 99, 97, 108, 104, 111, 115, 116, 99, 221, 2,
    7, 0, 5, 83, 116, 101, 118, 101]
  [.accept, .accept, .accept, .receive 1 steve, .receive 0 steve, .receive 2 steve, .leave 1]

theorem full_server_counts_players :
    let start := Network.start { compressionThreshold := -1, maxPlayers := 2 } .acceptAll
    let n := start.run Happening.threeLogins
    start.admissions Happening.threeLogins = [(1, 1), (0, 2)] ∧ n.server.online = 1 ∧
      n.playerCount = 1 ∧ n.server.nextEntityId = 3 ∧
      ((start.admissions Happening.threeLogins).map (·.2)).Nodup := by
  intro start n
  have admissions : start.admissions Happening.threeLogins = [(1, 1), (0, 2)] := by decide +kernel
  have online : n.server.online = 1 := by decide +kernel
  obtain ⟨counted, -, rest⟩ :=
    online_is_player_count { compressionThreshold := -1, maxPlayers := 2 } .acceptAll
      Happening.threeLogins
  obtain ⟨-, -, next, -, different⟩ := rest (by simp [Happening.threeLogins, Happening.isJoin])
  refine ⟨admissions, online, counted.symm.trans online, ?_, different ?_⟩
  · rw [show n.server.nextEntityId = _ from next, admissions]
    rfl
  · rw [admissions]
    decide

end VoxelServer
