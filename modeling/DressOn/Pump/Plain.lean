import DressOn.Lib.Numerals
import DressOn.Lib.Stutter
import DressOn.Pump.Frames

/-!
# The pump and its host are plain input and output

In a plain run a read returns its bytes at once, an upload puts all of its bytes down, and a wait
is over at once. Whatever the pieces and the frames are, the pump gets a job to the same calls with
the same bytes put down, and after a wait it gives the job a later frame.
-/

namespace DressOn.Pump

/-- The bytes of a read. No bytes stands for all up to the end. -/
def slice (content : Content) (offset bytes : ℕ) : List UInt8 :=
  if bytes = 0 then content.val.drop offset else (content.val.drop offset).take bytes

/-- The bytes of an upload that are within the file and the buffer. -/
def Movable (content : Content) (size foff doff n : ℕ) : Prop :=
  n = 0 ∨ (foff + n ≤ content.val.length ∧ doff + n ≤ size)

instance (content : Content) (size foff doff n : ℕ) : Decidable (Movable content size foff doff n) :=
  inferInstanceAs (Decidable (_ ∨ _))

/-- What a number of bytes of an upload put down. -/
def moved (content : Content) (foff : ℕ) (rid : Rid) (doff n : ℕ) : List Write :=
  bytesAt rid doff ((content.val.drop foff).take n)

/-- A plain run: a job in a state with the bytes that were put down, or its end. -/
inductive Plain (σ : Type)
  | running (state : σ) (written : List Write)
  | done (written : List Write)
  | failed (state : σ) (written : List Write)

/-- A job makes a plain call. -/
def Plain.step {σ : Type} (setting : Setting) (job : Job σ) : Plain σ → Plain σ
  | running state written =>
      match job state with
      | .read path offset bytes next =>
          match setting.files path with
          | none => failed state written
          | some content => running (next (slice content offset bytes)) written
      | .upload path foff n rid doff next =>
          match setting.buffers, setting.files path with
          | some size, some content =>
              if Movable content (size rid) foff doff n then
                running (next true) (written ++ moved content foff rid doff n)
              else
                failed state written
          | _, _ => failed state written
      | .waitGpu next | .coop next => running next written
      | .fail _ | .escape => failed state written
      | .done => done written
  | ended => ended

/-- A small number is one of 64 bits. -/
theorem int64_of_lt {n : ℕ} (below : n < 2 ^ 63) : int64 n = n :=
  Int.bmod_eq_of_le_mul_two (by omega) (by omega)

/-- A position is a number of 64 bits. -/
theorem int64_eq (position : Position) : int64 position = (position.val : ℤ) := by
  exact int64_of_lt position.2

/-- Bytes at a position, in two pieces. -/
theorem bytesAt_append (rid : Rid) (position : ℤ) (first second : List UInt8) :
    bytesAt rid position (first ++ second) =
      bytesAt rid position first ++ bytesAt rid (position + first.length) second := by
  induction first generalizing position with
  | nil => simp [bytesAt]
  | cons byte first inductionHypothesis =>
    have next : position + 1 + first.length = position + (byte :: first).length := by
      rw [List.length_cons]
      omega
    rw [List.cons_append, bytesAt, inductionHypothesis, bytesAt, List.cons_append, next]

/-- More bytes of an upload go behind the ones before them. -/
theorem moved_add {content : Content} {foff doff n : ℕ} (rid : Rid) (more : ℕ)
    (within : foff + n ≤ content.val.length ∨ n = 0) :
    moved content foff rid doff (n + more) =
      moved content foff rid doff n ++
        bytesAt rid (doff + n : ℕ) ((content.val.drop (foff + n)).take more) := by
  have length : ((content.val.drop foff).take n).length = n := by
    rw [List.length_take, List.length_drop]
    omega
  rw [moved, List.take_add, List.drop_drop, bytesAt_append, length]
  rfl

/-- The bytes of a file from a position on. -/
theorem getBuffer_cast (content : Content) (position n : ℕ) :
    getBuffer content position n = (content.val.drop position).take n := rfl

namespace Setting

variable (setting : Setting)

/-- An upload goes on in order within its bytes, and fails only where it does not fit. -/
theorem carry_spec (content : Content) (size : ℕ) (path : String) (foff n : ℕ) (rid : Rid)
    (doff : ℕ) {before : ℕ} (le : before ≤ n) (movable : Movable content size foff doff before)
    (budget : ℤ) (written : List Write) :
    ∃ after, before ≤ after ∧ after ≤ n ∧ Movable content size foff doff after ∧
      (setting.carry content size ⟨path, foff, n, doff, rid, before⟩ budget
        (written ++ moved content foff rid doff before)).up = ⟨path, foff, n, doff, rid, after⟩ ∧
      (setting.carry content size ⟨path, foff, n, doff, rid, before⟩ budget
        (written ++ moved content foff rid doff before)).written =
          written ++ moved content foff rid doff after ∧
      (((setting.carry content size ⟨path, foff, n, doff, rid, before⟩ budget
          (written ++ moved content foff rid doff before)).failure = none ∧
          (0 < budget → after = n ∨ before < after)) ∨
        ((setting.carry content size ⟨path, foff, n, doff, rid, before⟩ budget
          (written ++ moved content foff rid doff before)).failure.isSome ∧
          ¬ Movable content size foff doff n)) := by
  induction left : n - before using Nat.strong_induction_on generalizing before budget with
  | h _ inductionHypothesis =>
    subst left
    rw [carry]
    dsimp only
    split
    next go =>
      have chunk_pos := setting.uploadChunk_pos
      obtain ⟨k, chunk⟩ : ∃ k : ℕ,
          min (min ((n : ℤ) - before) setting.uploadChunk) budget = k :=
        Int.eq_ofNat_of_zero_le (by omega)
      have positive : 0 < k := by omega
      have fits : before + k ≤ n := by omega
      have at_file : (foff : ℤ) + before = (foff + before : ℕ) := by push_cast; rfl
      have at_buffer : (doff : ℤ) + before = (doff + before : ℕ) := by push_cast; rfl
      rw [chunk, at_file, at_buffer, getBuffer_cast]
      split
      next short =>
        refine ⟨before, le_rfl, le, movable, rfl, rfl, .inr ⟨rfl, ?_⟩⟩
        rw [List.length_take, List.length_drop] at short
        rintro (none | ⟨within, -⟩) <;> omega
      next all =>
        rw [List.length_take, List.length_drop] at all
        split
        next room =>
          have next_movable : Movable content size foff doff (before + k) := by
            refine .inr ⟨?_, ?_⟩ <;> omega
          have within : foff + before ≤ content.val.length ∨ before = 0 :=
            movable.symm.imp And.left id
          have sum : (before : ℤ) + k = (before + k : ℕ) := by push_cast; rfl
          obtain ⟨after, later, bounded, reached, up, rest, outcome⟩ :=
            inductionHypothesis (n - (before + k)) (by omega) fits next_movable (budget - k) rfl
          rw [List.append_assoc, ← moved_add rid k within, sum]
          refine ⟨after, by omega, bounded, reached, up, rest, outcome.imp ?_ id⟩
          exact fun ⟨fine, _⟩ => ⟨fine, fun _ => .inr (by omega)⟩
        next full =>
          refine ⟨before, le_rfl, le, movable, rfl, rfl, .inr ⟨rfl, ?_⟩⟩
          rintro (none | ⟨-, room⟩) <;> omega
    next stop =>
      exact ⟨before, le_rfl, le, movable, rfl, rfl, .inl ⟨rfl, fun some => .inl (by omega)⟩⟩

variable {σ : Type} {setting} {job : Job σ}

/-- An upload without a device fails. -/
theorem carryUpload_of_no_device {world : World σ} {up : Upload} (asked : world.up = some up)
    (device : setting.buffers = none) (budget : ℤ) :
    setting.carryUpload world budget =
      (world.fail "UPLOAD without a RenderingDevice", budget) := by
  rw [carryUpload, asked]
  dsimp only
  rw [device]

/-- An upload of a file that cannot be opened fails. -/
theorem carryUpload_of_no_file {world : World σ} {up : Upload} {size : Rid → ℕ}
    (asked : world.up = some up) (device : setting.buffers = some size)
    (file : setting.files up.path = none) (budget : ℤ) :
    setting.carryUpload world budget =
      (world.fail ("UPLOAD " ++ up.path ++ ": " ++ setting.openError), budget) := by
  rw [carryUpload, asked]
  dsimp only
  rw [device]
  dsimp only
  rw [file]

/-- The rest of an upload is served, or does not fit. -/
theorem carryUpload_spec {world : World σ} {content : Content} {size : Rid → ℕ} {path : String}
    {foff n doff before : ℕ} {rid : Rid} {written : List Write}
    (buffers : setting.buffers = some size) (file : setting.files path = some content)
    (up : world.up = some ⟨path, foff, n, doff, rid, before⟩) (le : before ≤ n)
    (movable : Movable content (size rid) foff doff before)
    (bytes : world.written = written ++ moved content foff rid doff before) (budget : ℤ) :
    ∃ after, before ≤ after ∧ after ≤ n ∧ Movable content (size rid) foff doff after ∧
      (setting.carryUpload world budget).1.guest = world.guest ∧
      (setting.carryUpload world budget).1.feed = world.feed ∧
      (setting.carryUpload world budget).1.written =
        written ++ moved content foff rid doff after ∧
      (((setting.carryUpload world budget).1.state = world.state ∧
          (setting.carryUpload world budget).1.up =
            (if after < n then some ⟨path, foff, n, doff, rid, after⟩ else none) ∧
          (0 < budget → after = n ∨ before < after)) ∨
        ((setting.carryUpload world budget).1.state = .error ∧
          ¬ Movable content (size rid) foff doff n)) := by
  obtain ⟨after, later, bounded, reached, left, rest, outcome⟩ :=
    setting.carry_spec content (size rid) path foff n rid doff le movable budget written
  rw [carryUpload, up]
  dsimp only
  rw [buffers, file, bytes]
  dsimp only
  generalize setting.carry content (size rid) ⟨path, foff, n, doff, rid, before⟩ budget
    (written ++ moved content foff rid doff before) = carried at *
  refine ⟨after, later, bounded, reached, ?_⟩
  rcases outcome with ⟨fine, progress⟩ | ⟨broken, refused⟩
  · rw [fine]
    refine ⟨rfl, rfl, rest, .inl ⟨rfl, ?_, progress⟩⟩
    rw [left]
    dsimp only
    split <;> split <;> first | rfl | omega
  · obtain ⟨why, broken⟩ := Option.isSome_iff_exists.mp broken
    rw [broken]
    exact ⟨rfl, rfl, rest, .inr ⟨rfl, refused⟩⟩

end Setting

section

variable {σ : Type} (setting : Setting) (job : Job σ)

/-- The call that a fiber is in. -/
def Fiber.call : Fiber σ → Call σ
  | fresh state => job state
  | reading path offset bytes next _ => .read path offset bytes next
  | uploading path foff n rid doff next => .upload path foff n rid doff next
  | waiting next => .waitGpu next
  | cooping next => .coop next
  | failed text => .fail text
  | escaped => .escape
  | done => .done

/-- What an upload puts down. -/
def uploadBytes : Call σ → List Write
  | .upload path foff n rid doff _ =>
      (setting.files path).elim [] fun content => moved content foff rid doff n
  | _ => []

/-- The pump is where the plain run is. Of an upload that is served the first bytes are down. -/
def Reflects : Plain σ → World σ → Prop
  | .running state written, world =>
      world.state = .running ∧ world.guest.call job = job state ∧
        ∃ part, part <+: uploadBytes setting (job state) ∧ world.written = written ++ part
  | .done written, world => world.state = .done ∧ world.written = written
  | .failed state written, world =>
      world.state = .error ∧
        ∃ part, part <+: uploadBytes setting (job state) ∧ world.written = written ++ part

/-- The fiber is in the call of a state, with what the host has served of it. -/
inductive Pending (state : σ) (written : List Write) (world : World σ) : Prop
  | fresh (guest : world.guest = .fresh state) (feed : world.feed = []) (up : world.up = none)
      (bytes : world.written = written)
  | waiting {next : σ} (call : job state = .waitGpu next) (guest : world.guest = .waiting next)
      (feed : world.feed = []) (up : world.up = none) (bytes : world.written = written)
  | cooping {next : σ} (call : job state = .coop next) (guest : world.guest = .cooping next)
      (feed : world.feed = []) (up : world.up = none) (bytes : world.written = written)
  | reading {path : String} {offset : Position} {count : ℕ} {next : List UInt8 → σ}
      {out : List UInt8} {content : Content} (call : job state = .read path offset count next)
      (guest : world.guest = .reading path offset count next out)
      (file : setting.files path = some content)
      (got : out = (content.val.drop offset).take out.length)
      (wanted : 0 < setting.want count out.length)
      (feed : world.feed =
        (content.val.drop (offset + out.length)).take (setting.want count out.length))
      (up : world.up = none) (bytes : world.written = written)
  | uploading {path : String} {foff n doff : Position} {rid : Rid} {next : Bool → σ}
      {size : Rid → ℕ} {content : Content} {after : ℕ}
      (call : job state = .upload path foff n rid doff next)
      (guest : world.guest = .uploading path foff n rid doff next)
      (buffers : setting.buffers = some size) (file : setting.files path = some content)
      (le : after ≤ n) (movable : Movable content (size rid) foff doff after)
      (feed : world.feed = [])
      (up : world.up = if after < n then some ⟨path, foff, n, doff, rid, after⟩ else none)
      (pause : after < n → world.budget = none)
      (bytes : world.written = written ++ moved content foff rid doff after)

/-- The relation that every turn keeps. -/
inductive Follows : Plain σ → World σ → Prop
  | running {state : σ} {written : List Write} {world : World σ} (live : world.state = .running)
      (pending : Pending setting job state written world) : Follows (.running state written) world
  | done {written : List Write} {world : World σ} (ended : world.state = .done)
      (bytes : world.written = written) : Follows (.done written) world
  | failed {state : σ} {written : List Write} {world : World σ} {part : List Write}
      (ended : world.state = .error) (some : part <+: uploadBytes setting (job state))
      (bytes : world.written = written ++ part) : Follows (.failed state written) world

/-- What is left to do of a call, at most. -/
def workOf : Call σ → ℕ
  | .read path offset _ _ =>
      (setting.files path).elim 0 fun content => content.val.length - offset
  | .upload _ _ n _ _ _ => n
  | _ => 0

/-- What is left to do of the call that the fiber is in. -/
def workLeft (world : World σ) : ℕ :=
  match world.guest with
  | .fresh state => workOf setting (job state) + 1
  | .reading path offset _ _ out =>
      (setting.files path).elim 0 fun content => content.val.length - (offset + out.length)
  | .uploading _ _ _ _ _ _ => world.up.elim 0 fun up => (up.n - up.done).toNat
  | _ => 0

/-- A turn within a call lowers it. -/
def rank (world : World σ) : ℕ :=
  if world.state = .running then
    (if world.budget.isNone then 2 else 1) + 2 * workLeft setting job world
  else
    0

variable {setting job} {state : σ} {written : List Write} {world : World σ}

/-- The rank is bounded by the work that is left. -/
theorem rank_le (world : World σ) :
    rank setting job world ≤ 2 + 2 * workLeft setting job world := by
  unfold rank
  split
  next => split <;> omega
  next => omega

/-- An ended run has rank zero. -/
theorem rank_of_over (finished : world.state ≠ .running) : rank setting job world = 0 :=
  if_neg finished

/-- What has been moved is the first part of what an upload puts down. -/
theorem moved_prefix (content : Content) (foff : ℕ) (rid : Rid) (doff : ℕ) {after n : ℕ}
    (le : after ≤ n) : moved content foff rid doff after <+: moved content foff rid doff n := by
  obtain ⟨rest, all⟩ := List.take_prefix_take_left (l := content.val.drop foff) le
  rw [moved, moved, ← all, bytesAt_append]
  exact List.prefix_append _ _

/-- A pending exchange reflects the plain run. -/
theorem Pending.reflects (live : world.state = .running)
    (pending : Pending setting job state written world) :
    Reflects setting job (.running state written) world := by
  have nothing {part : List Write} : [] <+: part := List.nil_prefix
  refine ⟨live, ?_⟩
  cases pending with
  | fresh guest _ _ bytes =>
    exact ⟨by rw [guest]; rfl, [], nothing, by rw [bytes, List.append_nil]⟩
  | waiting call guest _ _ bytes =>
    exact ⟨by rw [guest, call]; rfl, [], nothing, by rw [bytes, List.append_nil]⟩
  | cooping call guest _ _ bytes =>
    exact ⟨by rw [guest, call]; rfl, [], nothing, by rw [bytes, List.append_nil]⟩
  | reading call guest _ _ _ _ _ bytes =>
    exact ⟨by rw [guest, call]; rfl, [], nothing, by rw [bytes, List.append_nil]⟩
  | uploading call guest _ file le _ _ _ _ bytes =>
    refine ⟨by rw [guest, call]; rfl, _, ?_, bytes⟩
    rw [call, uploadBytes, file]
    exact moved_prefix _ _ _ _ le

/-- What follows the plain run reflects it. -/
theorem Follows.reflects {plain : Plain σ} (follows : Follows setting job plain world) :
    Reflects setting job plain world := by
  cases follows with
  | running live pending => exact pending.reflects live
  | done finished bytes => exact ⟨finished, bytes⟩
  | failed finished some bytes => exact ⟨finished, _, some, bytes⟩

/-- The call that a fiber is in does not depend on the frame, where nothing is carried. -/
theorem Pending.restart (pending : Pending setting job state written world)
    (idle : world.up = none) (frames : ℕ) (budget : Option ℤ) :
    Pending setting job state written { world with frames, budget } := by
  cases pending with
  | fresh guest feed up bytes => exact .fresh guest feed up bytes
  | waiting call guest feed up bytes => exact .waiting call guest feed up bytes
  | cooping call guest feed up bytes => exact .cooping call guest feed up bytes
  | reading call guest file got wanted feed up bytes =>
    exact .reading call guest file got wanted feed up bytes
  | uploading call guest buffers file le movable feed up pause bytes =>
    refine .uploading call guest buffers file le movable feed up (fun less => ?_) bytes
    rw [if_pos less] at up
    exact absurd (idle.symm.trans up) nofun

/-- The host serves a piece of a read. -/
theorem served_request {path : String} {offset : Position} {count : ℕ} {next : List UInt8 → σ}
    {out : List UInt8} {content : Content} (call : job state = .read path offset count next)
    (live : world.state = .running) (up : world.up = none) (bytes : world.written = written)
    (file : setting.files path = some content)
    (got : out = (content.val.drop offset).take out.length)
    (wanted : 0 < setting.want count out.length)
    (guest : world.guest = .reading path offset count next out) (budget : ℤ) :
    (setting.serve (setting.request path offset count next out).2 world budget).state = .running ∧
      Pending setting job state written
        (setting.serve (setting.request path offset count next out).2 world budget) ∧
      rank setting job
          (setting.serve (setting.request path offset count next out).2 world budget) ≤
        2 + 2 * (content.val.length - (offset + out.length)) := by
  have length : out.length ≤ content.val.length - offset := by
    rw [got, List.length_take, List.length_drop]
    omega
  have want_lt : setting.want count out.length < 2 ^ 63 := by
    have := setting.kReadChunk_lt
    unfold Setting.want
    split <;> omega
  have position : int64 (offset + out.length) = (offset + out.length : ℕ) := by
    have := content.2
    have := offset.2
    exact int64_of_lt (by omega)
  have answer : setting.read path (int64 (offset + out.length))
      (int64 (setting.want count out.length)) =
      .ok ((content.val.drop (offset + out.length)).take (setting.want count out.length)) := by
    have some : ¬ ((setting.want count out.length : ℕ) : ℤ) ≤ 0 := by omega
    rw [Setting.read, file, position, int64_of_lt want_lt]
    dsimp only
    rw [if_neg some, getBuffer_cast]
  unfold Setting.serve Setting.request
  dsimp only
  rw [answer]
  dsimp only
  refine ⟨live, .reading call guest file got wanted rfl up bytes, ?_⟩
  have left : workLeft setting job
      (World.spend (budget - ((content.val.drop (offset + out.length)).take
        (setting.want count out.length)).length) { world with
          feed := ((content.val.drop (offset + out.length)).take
            (setting.want count out.length)) }) =
      content.val.length - (offset + out.length) := by
    simp only [workLeft, World.spend, guest, file, Option.elim_some]
  exact left ▸ rank_le _

/-- After a stretch of an upload the fiber is still in it, or the upload has failed. -/
theorem carried_follows {path : String} {foff n doff : Position} {rid : Rid} {next : Bool → σ}
    {size : Rid → ℕ} {content : Content} {before : ℕ}
    (call : job state = .upload path foff n rid doff next) (live : world.state = .running)
    (guest : world.guest = .uploading path foff n rid doff next)
    (buffers : setting.buffers = some size) (file : setting.files path = some content)
    (le : before ≤ n) (movable : Movable content (size rid) foff doff before)
    (feed : world.feed = []) (up : world.up = some ⟨path, foff, n, doff, rid, before⟩)
    (bytes : world.written = written ++ moved content foff rid doff before) (budget : ℤ)
    {result : World σ} (rest : Option ℤ)
    (stops : result =
      if (setting.carryUpload world budget).1.up.isSome ∨
          (setting.carryUpload world budget).1.state ≠ .running then
        { (setting.carryUpload world budget).1 with budget := none }
      else
        { (setting.carryUpload world budget).1 with budget := rest }) :
    ∃ count,
      Follows setting job ((Plain.step setting job)^[count] (.running state written)) result ∧
      rank setting job result ≤ 2 + 2 * (n - before) ∧
      (0 < budget → before < n → rank setting job result < 2 + 2 * (n - before)) := by
  obtain ⟨after, later, le, movable, same_guest, same_feed, written_after, outcome⟩ :=
    Setting.carryUpload_spec buffers file up le movable bytes budget
  generalize setting.carryUpload world budget = served at *
  obtain ⟨served, left⟩ := served
  dsimp only at *
  have guest := same_guest.trans guest
  have feed := same_feed.trans feed
  rcases outcome with ⟨same_state, up_served, progress⟩ | ⟨broken, refuses⟩
  · have live := same_state.trans live
    by_cases less : after < n
    · rw [if_pos less] at up_served
      rw [if_pos (.inl (by rw [up_served]; rfl))] at stops
      subst stops
      have bound : rank setting job { served with budget := none } ≤ 2 + 2 * (n - after) := by
        refine (rank_le _).trans ?_
        simp only [workLeft, guest, up_served, Option.elim_some]
        omega
      refine ⟨0, .running live (.uploading call guest buffers file le movable feed
        (by rw [if_pos less]; exact up_served) (fun _ => rfl) written_after), by omega, ?_⟩
      intro some _
      have := progress some
      omega
    · rw [if_neg less] at up_served
      rw [if_neg (by rw [up_served, live]; simp)] at stops
      subst stops
      have bound : rank setting job { served with budget := rest } ≤ 2 := by
        refine (rank_le _).trans ?_
        simp only [workLeft, guest, up_served, Option.elim_none]
        omega
      refine ⟨0, .running live (.uploading call guest buffers file le movable feed
        (by rw [if_neg less]; exact up_served) (fun paused => absurd paused less) written_after),
        by omega, by omega⟩
  · rw [if_pos (.inr (by rw [broken]; nofun))] at stops
    subst stops
    have none_left : rank setting job { served with budget := none } = 0 :=
      rank_of_over (by rw [broken]; nofun)
    have some_part : moved content foff rid doff after <+: uploadBytes setting (job state) := by
      rw [call, uploadBytes, file]
      exact moved_prefix _ _ _ _ le
    refine ⟨1, ?_, by omega, by omega⟩
    have failed : Plain.step setting job (.running state written) = .failed state written := by
      rw [Plain.step, call]
      dsimp only
      rw [buffers, file]
      exact if_neg refuses
    rw [Function.iterate_one, failed]
    exact .failed broken some_part written_after

/-- The host serves the call that a job goes on to. -/
theorem served_resume (live : world.state = .running) (feed : world.feed = [])
    (up : world.up = none) (bytes : world.written = written)
    (guest : world.guest = (setting.resume job state).1) (budget : ℤ) :
    ∃ count,
      Follows setting job ((Plain.step setting job)^[count] (.running state written))
        (setting.serve (setting.resume job state).2 world budget) ∧
      rank setting job (setting.serve (setting.resume job state).2 world budget) <
        1 + 2 * (workOf setting (job state) + 1) := by
  have none_left {w : World σ} (finished : w.state ≠ .running) (bound : ℕ) :
      rank setting job w < 1 + bound := by
    rw [rank_of_over finished]
    omega
  cases call : job state with
  | read path offset count next =>
    rw [Setting.resume, call] at guest ⊢
    cases file : setting.files path with
    | none =>
      have answer (off n : ℤ) :
          setting.read path off n = .error ("READ " ++ path ++ ": " ++ setting.openError) := by
        rw [Setting.read, file]
      dsimp only [Setting.request, Setting.serve]
      rw [answer]
      refine ⟨1, ?_, none_left (fun same => by cases same) _⟩
      rw [Function.iterate_one, Plain.step, call]
      dsimp only
      rw [file]
      exact .failed rfl List.nil_prefix (by rw [List.append_nil]; exact bytes)
    | some content =>
      have wanted : 0 < setting.want count ([] : List UInt8).length := by
        have := setting.kReadChunk_pos
        rw [Setting.want, List.length_nil]
        split <;> omega
      obtain ⟨running, pending, bound⟩ :=
        served_request call live up bytes file rfl wanted guest budget
      refine ⟨0, .running running pending, bound.trans_lt ?_⟩
      rw [workOf, file, Option.elim_some, List.length_nil]
      omega
  | upload path foff n rid doff next =>
    rw [Setting.resume, call] at guest ⊢
    dsimp only at guest
    dsimp only [Setting.serve]
    simp only [int64_eq]
    have refused (step_failed : Plain.step setting job (.running state written) =
        .failed state written) {w : World σ} {part : List Write} (finished : w.state = .error)
        (some : part <+: uploadBytes setting (job state)) (rest : w.written = written ++ part) :
        ∃ count, Follows setting job ((Plain.step setting job)^[count] (.running state written)) w ∧
          rank setting job w < 1 + 2 * (workOf setting (.upload path foff n rid doff next) + 1) := by
      refine ⟨1, ?_, none_left (by rw [finished]; nofun) _⟩
      rw [Function.iterate_one, step_failed]
      exact .failed finished some rest
    cases buffers : setting.buffers with
    | none =>
      rw [Setting.carryUpload_of_no_device rfl buffers]
      refine refused ?_ rfl List.nil_prefix (by rw [List.append_nil]; exact bytes)
      rw [Plain.step, call]
      dsimp only
      rw [buffers]
    | some size =>
    cases file : setting.files path with
    | none =>
      rw [Setting.carryUpload_of_no_file rfl buffers file]
      refine refused ?_ rfl List.nil_prefix (by rw [List.append_nil]; exact bytes)
      rw [Plain.step, call]
      dsimp only
      rw [buffers, file]
    | some content =>
    have nothing : moved content foff rid doff 0 = [] := rfl
    obtain ⟨count, follows, bound, -⟩ := @carried_follows σ setting job state written
      { world with up := some ⟨path, foff, n, doff, rid, (0 : ℕ)⟩ } path foff n doff rid next size
      content 0 call live guest buffers file (Nat.zero_le n) (.inl rfl) feed rfl
      (by rw [nothing, List.append_nil]; exact bytes) budget _ _ rfl
    exact ⟨count, follows, bound.trans_lt (by rw [workOf]; omega)⟩
  | waitGpu next =>
    rw [Setting.resume, call] at guest ⊢
    refine ⟨0, .running live (.waiting call guest feed up bytes), ?_⟩
    simp [rank, workLeft, workOf, Setting.serve, guest, live]
  | coop next =>
    rw [Setting.resume, call] at guest ⊢
    refine ⟨0, .running live (.cooping call guest feed up bytes), ?_⟩
    simp [rank, workLeft, workOf, Setting.serve, guest, live]
  | fail text =>
    rw [Setting.resume, call]
    refine ⟨1, ?_, none_left (fun same => by cases same) _⟩
    rw [Function.iterate_one, Plain.step, call]
    exact .failed rfl List.nil_prefix (by rw [List.append_nil]; exact bytes)
  | escape =>
    rw [Setting.resume, call]
    refine ⟨1, ?_, none_left (fun same => by cases same) _⟩
    rw [Function.iterate_one, Plain.step, call]
    exact .failed rfl List.nil_prefix (by rw [List.append_nil]; exact bytes)
  | done =>
    rw [Setting.resume, call]
    refine ⟨1, ?_, none_left (fun same => by cases same) _⟩
    rw [Function.iterate_one, Plain.step, call]
    exact .done rfl bytes

/-- A piece more of a read is what follows in the file. -/
theorem read_append {content : Content} {offset : ℕ} {out : List UInt8} (more : ℕ)
    (got : out = (content.val.drop offset).take out.length) :
    out ++ (content.val.drop (offset + out.length)).take more =
      (content.val.drop offset).take (out.length + more) := by
  rw [List.take_add, ← got, List.drop_drop]

/-- A read ends with its bytes, or with those up to the end. -/
theorem read_finished {content : Content} {offset count : ℕ} {out : List UInt8}
    (got : out = (content.val.drop offset).take out.length)
    (wanted : 0 < setting.want count out.length) {feed : List UInt8}
    (fed : feed = (content.val.drop (offset + out.length)).take (setting.want count out.length))
    (finished : feed.length < setting.want count out.length ∨
      setting.want count (out ++ feed).length = 0) :
    out ++ feed = slice content offset count := by
  have chunk := setting.kReadChunk_pos
  have length : (out ++ feed).length =
      min (out.length + setting.want count out.length) (content.val.length - offset) := by
    rw [fed, read_append _ got, List.length_take, List.length_drop]
  rw [List.length_append] at length
  rw [fed, read_append _ got, slice]
  rw [List.length_append] at finished
  unfold Setting.want at *
  split
  next all =>
    simp only [if_pos all] at *
    refine List.take_of_length_le ?_
    rw [List.length_drop]
    omega
  next some =>
    simp only [if_neg some] at *
    rw [List.take_eq_take_iff, List.length_drop]
    omega

/-- A frame begins: an upload that was carried goes on, or nothing happens but the budget. -/
theorem beginFrame_follows (live : world.state = .running) (paused : world.budget = none)
    (pending : Pending setting job state written world) :
    ∃ count,
      Follows setting job ((Plain.step setting job)^[count] (.running state written))
        (setting.beginFrame world) ∧
      (0 < setting.capBytes → count = 0 →
        rank setting job (setting.beginFrame world) < rank setting job world) := by
  have before : rank setting job world = 2 + 2 * workLeft setting job world := by
    rw [rank, if_pos live, paused]
    rfl
  cases up : world.up with
  | none =>
    have begun : setting.beginFrame world =
        { world with frames := world.frames + 1, budget := some setting.capBytes } := by
      rw [Setting.beginFrame]
      exact if_pos (by rw [up]; rfl)
    rw [begun]
    refine ⟨0, .running live (pending.restart up _ _), fun _ _ => ?_⟩
    have same : workLeft setting job
        { world with frames := world.frames + 1, budget := some setting.capBytes } =
        workLeft setting job world := rfl
    rw [before, rank, if_pos live, same]
    exact Nat.add_lt_add_right (Nat.lt_succ_self 1) _
  | some carried =>
    cases pending with
    | fresh _ _ idle => exact absurd (up.symm.trans idle) nofun
    | waiting _ _ _ idle => exact absurd (up.symm.trans idle) nofun
    | cooping _ _ _ idle => exact absurd (up.symm.trans idle) nofun
    | reading _ _ _ _ _ _ idle => exact absurd (up.symm.trans idle) nofun
    | @uploading path foff n doff rid next size content after call guest buffers file _ movable
        feed carries _ bytes =>
      have less : after < n := by
        by_contra all
        rw [if_neg all] at carries
        exact absurd (up.symm.trans carries) nofun
      rw [if_pos less] at carries
      have left : workLeft setting job world = n - after := by
        simp only [workLeft, guest, carries, Option.elim_some]
        omega
      have begun : setting.beginFrame world =
          if (setting.carryUpload { world with frames := world.frames + 1 }
                setting.capBytes).1.up.isSome ∨
              (setting.carryUpload { world with frames := world.frames + 1 }
                setting.capBytes).1.state ≠ .running then
            { (setting.carryUpload { world with frames := world.frames + 1 }
                setting.capBytes).1 with budget := none }
          else
            { (setting.carryUpload { world with frames := world.frames + 1 }
                setting.capBytes).1 with
              budget := some (setting.carryUpload { world with frames := world.frames + 1 }
                setting.capBytes).2 } := by
        rw [Setting.beginFrame]
        exact if_neg (by rw [up]; nofun)
      obtain ⟨count, follows, -, progress⟩ := @carried_follows σ setting job state written
        { world with frames := world.frames + 1 } path foff n doff rid next size content after call
        live guest buffers file less.le movable feed carries bytes setting.capBytes _ _ begun
      refine ⟨count, follows, fun some _ => ?_⟩
      rw [before, left]
      exact progress some less

/-- A pump call within a frame goes on with the call, or takes the job to its next one. -/
theorem pump_follows (live : world.state = .running) {budget : ℤ}
    (within : world.budget = some budget) (pending : Pending setting job state written world) :
    ∃ count,
      Follows setting job ((Plain.step setting job)^[count] (.running state written))
        (setting.pump job world budget) ∧
      (count = 0 → rank setting job (setting.pump job world budget) < rank setting job world) := by
  have before : rank setting job world = 1 + 2 * workLeft setting job world := by
    rw [rank, if_pos live, within]
    rfl
  -- the job goes on from a state that the plain run has come to
  have resumed {after : σ} {put : List Write} (up : world.up = none) (bytes : world.written = put)
      (step : setting.step job world.guest world.feed = setting.resume job after) :
      ∃ count,
        Follows setting job ((Plain.step setting job)^[count] (.running after put))
          (setting.pump job world budget) ∧
        rank setting job (setting.pump job world budget) <
          1 + 2 * (workOf setting (job after) + 1) := by
    rw [Setting.pump, step]
    exact @served_resume σ setting job after put { world with
      guest := (setting.resume job after).1
      feed := []
      pumps := world.pumps ++ [(world.frames, (setting.resume job after).2.kind)] }
      live rfl up bytes rfl budget
  -- after a plain step
  have stepped {after : σ} {put : List Write} (up : world.up = none) (bytes : world.written = put)
      (step : setting.step job world.guest world.feed = setting.resume job after)
      (plain : Plain.step setting job (.running state written) = .running after put) :
      ∃ count,
        Follows setting job ((Plain.step setting job)^[count] (.running state written))
          (setting.pump job world budget) ∧
        (count = 0 →
          rank setting job (setting.pump job world budget) < rank setting job world) := by
    obtain ⟨count, follows, -⟩ := resumed up bytes step
    refine ⟨count + 1, ?_, nofun⟩
    rwa [Function.iterate_succ_apply, plain]
  cases pending with
  | fresh guest feed up bytes =>
    obtain ⟨count, follows, falls⟩ := resumed up bytes (by rw [guest]; rfl)
    refine ⟨count, follows, fun _ => falls.trans_eq ?_⟩
    rw [before, workLeft, guest]
  | waiting call guest feed up bytes =>
    exact stepped up bytes (by rw [guest]; rfl) (by rw [Plain.step, call])
  | cooping call guest feed up bytes =>
    exact stepped up bytes (by rw [guest]; rfl) (by rw [Plain.step, call])
  | @uploading path foff n doff rid next size content after call guest buffers file le movable feed
      carries pause bytes =>
    have all : ¬ after < n := fun less => absurd (within.symm.trans (pause less)) nofun
    obtain rfl : after = n := by omega
    rw [if_neg all] at carries
    refine stepped carries bytes (by rw [guest]; rfl) ?_
    rw [Plain.step, call]
    dsimp only
    rw [buffers, file]
    exact if_pos movable
  | @reading path offset count next out content call guest file got wanted feed up bytes =>
    by_cases finished : world.feed.length < setting.want count out.length ∨
        setting.want count (out ++ world.feed).length = 0
    · have step : setting.step job world.guest world.feed =
          setting.resume job (next (out ++ world.feed)) := by
        rw [guest]
        exact if_pos finished
      refine stepped up bytes step ?_
      rw [Plain.step, call]
      dsimp only
      rw [file, read_finished got wanted feed finished]
    · have step : setting.step job world.guest world.feed =
          setting.request path offset count next (out ++ world.feed) := by
        rw [guest]
        exact if_neg finished
      rw [not_or] at finished
      obtain ⟨long, more⟩ := finished
      have length : world.feed.length = setting.want count out.length := by
        have := congrArg List.length feed
        rw [List.length_take] at this
        omega
      have within_file : offset + out.length + world.feed.length ≤ content.val.length := by
        have := congrArg List.length feed
        rw [List.length_take, List.length_drop] at this
        omega
      have got_more : out ++ world.feed =
          (content.val.drop offset).take (out ++ world.feed).length := by
        rw [List.length_append, length, ← read_append _ got, ← feed]
      rw [Setting.pump, step]
      obtain ⟨live, pending, bound⟩ := @served_request σ setting job state written { world with
        guest := (setting.request path offset count next (out ++ world.feed)).1
        feed := []
        pumps := world.pumps ++ [(world.frames,
          (setting.request path offset count next (out ++ world.feed)).2.kind)] }
        path offset count next (out ++ world.feed) content call live up bytes file got_more
        (Nat.pos_of_ne_zero more) rfl budget
      refine ⟨0, .running live pending, fun _ => bound.trans_lt ?_⟩
      have left : workLeft setting job world = content.val.length - (offset + out.length) := by
        simp only [workLeft, guest, file, Option.elim_some]
      rw [before, left, List.length_append]
      omega

/-- Every turn keeps to the plain run. Under a positive cap the turns that do not take it on come
to an end. -/
theorem turn_follows {plain : Plain σ} (follows : Follows setting job plain world) :
    ∃ count,
      Follows setting job ((Plain.step setting job)^[count] plain) (setting.turn job world) ∧
      (0 < setting.capBytes → count = 0 →
        rank setting job (setting.turn job world) < rank setting job world) := by
  cases follows with
  | running live pending =>
    rw [Setting.turn, if_pos live]
    cases budget : world.budget with
    | none => exact beginFrame_follows live budget pending
    | some budget =>
      obtain ⟨count, follows, falls⟩ := pump_follows live ‹_› pending
      exact ⟨count, follows, fun _ => falls⟩
  | done finished bytes =>
    rw [Setting.turn, if_neg (by rw [finished]; nofun)]
    exact ⟨1, .done finished bytes, nofun⟩
  | failed finished some bytes =>
    rw [Setting.turn, if_neg (by rw [finished]; nofun)]
    exact ⟨1, .failed finished some bytes, nofun⟩

end

/-- After any number of turns the pump is where the plain run of the job comes to, and every wait
has given a later frame. Under a positive cap the pump gets as far as the plain run. -/
theorem pump_is_plain {σ : Type} (setting : Setting) (job : Job σ) (state : σ) :
    (∀ turns,
        (∃ calls, Reflects setting job
          ((Plain.step setting job)^[calls] (.running state []))
          ((setting.turn job)^[turns] (.start state))) ∧
        LaterFrames ((setting.turn job)^[turns] (World.start state)).pumps) ∧
      (0 < setting.capBytes → ∀ wanted, ∃ turns calls, wanted ≤ calls ∧
        Reflects setting job
          ((Plain.step setting job)^[calls] (.running state []))
          ((setting.turn job)^[turns] (.start state))) := by
  have start : Follows setting job (.running state []) (.start state) :=
    .running rfl (.fresh rfl rfl rfl rfl)
  refine ⟨fun turns => ⟨?_, ?_⟩, fun some wanted => ?_⟩
  · obtain ⟨calls, follows⟩ := Stutter.exists_steps
      (fun plain world (follows : Follows setting job plain world) =>
        (turn_follows follows).imp fun _ => And.left) start turns
    exact ⟨calls, follows.reflects⟩
  · have framed : Framed ((setting.turn job)^[turns] (World.start state)) := by
      induction turns with
      | zero => exact ⟨.nil, nofun, nofun⟩
      | succ turns inductionHypothesis =>
        rw [Function.iterate_succ_apply']
        exact inductionHypothesis.turn
    exact framed.later
  · obtain ⟨turns, calls, reached, follows⟩ := Stutter.exists_turns
      (fun plain world (follows : Follows setting job plain world) =>
        (turn_follows follows).imp fun _ both => ⟨both.1, both.2 some⟩) start wanted
    exact ⟨turns, calls, reached, follows.reflects⟩

/-- A host with one file and one buffer, that does little at a time. -/
def smallSetting : Setting where
  files path := if path = "weights" then some ⟨[10, 11, 12, 13, 14, 15, 16, 17], by decide⟩ else none
  openError := "File not found"
  buffers := some fun rid => if rid = 7 then 16 else 0
  updateError := "Invalid parameter"
  kReadChunk := 3
  uploadChunk := 2
  capBytes := 4
  kReadChunk_pos := Numerals.zero_lt_three
  kReadChunk_lt := by decide
  uploadChunk_pos := by decide

/-- A job that reads up to the end, uploads, and waits. -/
def smallJob : Job (ℕ × List UInt8)
  | (0, _) => .read "weights" ⟨2, by decide⟩ 0 fun bytes => (1, bytes)
  | (1, bytes) =>
      .upload "weights" ⟨1, by decide⟩ ⟨6, by decide⟩ 7 ⟨4, by decide⟩ fun _ => (2, bytes)
  | (2, bytes) => .waitGpu (3, bytes)
  | (_, bytes) => if bytes = [12, 13, 14, 15, 16, 17] then .done else .fail "wrong bytes"

/-- The job ends, with the bytes of its upload put down over several frames. -/
theorem smallJob_is_plain :
    ((smallSetting.turn smallJob)^[16] (World.start (0, []))).state = .done ∧
      ((smallSetting.turn smallJob)^[16] (World.start (0, []))).written =
        bytesAt 7 4 [11, 12, 13, 14, 15, 16] ∧
      ∃ turns calls, 4 ≤ calls ∧
        Reflects smallSetting smallJob
          ((Plain.step smallSetting smallJob)^[calls] (.running (0, []) []))
          ((smallSetting.turn smallJob)^[turns] (World.start (0, []))) :=
  ⟨by decide +kernel, by decide +kernel,
    (pump_is_plain smallSetting smallJob (0, [])).2 (by decide) 4⟩

end DressOn.Pump
