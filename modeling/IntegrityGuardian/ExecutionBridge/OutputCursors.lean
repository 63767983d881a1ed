import IntegrityGuardian.ExecutionBridge.Job

/-!
# Output cursors

A reader that goes on behind every reply accounts for every byte that was appended: it
received the byte, or the reply says how many were lost.
-/

namespace IntegrityGuardian.ExecutionBridge

open Python Library

/-! ## The buffer -/

/-- The buffer holds the last bytes that were appended, and starts to slide only when full. -/
structure Buffered (job : Job) (appended : Bytes) : Prop where
  output : job.output = appended.drop job.base
  base_le : job.base ≤ appended.length
  full : job.base ≠ 0 → job.output.length = maxOutput

variable {appended : Bytes} {maxBytes : Int} {job : Job} {r : Received} {s : Session}

theorem Buffered.length (h : Buffered job appended) :
    job.base + job.output.length = appended.length := by
  have hle := h.base_le
  rw [h.output, List.length_drop]
  omega

theorem Buffered.append (h : Buffered job appended) (data : Bytes) (truncated : Bool) :
    Buffered (job.append data truncated)
      (if job.state = .submitted then appended ++ data else appended) := by
  unfold Job.append
  by_cases hstate : job.state = .submitted
  · rw [if_neg (not_not.2 hstate), if_pos hstate]
    have hlength := h.length
    have hle := h.base_le
    have hmax : maxOutput = 65536 := rfl
    refine ⟨?_, ?_, ?_⟩
    · dsimp only
      rw [← List.drop_drop, List.drop_append_of_le_length hle, ← h.output]
    · dsimp only
      rw [List.length_append, List.length_append]
      omega
    · dsimp only
      intro hbase
      have hfull := h.full
      rw [List.length_drop, List.length_append]
      rw [List.length_append] at hbase
      by_cases hzero : job.base = 0
      · omega
      · have := hfull hzero
        omega
  · rw [if_pos hstate, if_neg hstate]
    exact h

theorem Buffered.of_eq {job' : Job} (h : Buffered job appended)
    (houtput : job'.output = job.output) (hbase : job'.base = job.base) :
    Buffered job' appended := by
  refine ⟨?_, ?_, ?_⟩
  · rw [houtput, hbase]
    exact h.output
  · rw [hbase]
    exact h.base_le
  · rw [houtput, hbase]
    exact h.full

theorem complete_output (job : Job) (result : Option Json) :
    (job.complete result).output = job.output ∧ (job.complete result).base = job.base := by
  unfold Job.complete
  split
  · exact ⟨rfl, rfl⟩
  · split <;> exact ⟨rfl, rfl⟩

theorem stop_output (job : Job) (now : Nat) :
    (job.stop now).output = job.output ∧ (job.stop now).base = job.base := by
  unfold Job.stop
  split <;> exact ⟨rfl, rfl⟩

theorem stopFailed_output (job : Job) :
    job.stopFailed.output = job.output ∧ job.stopFailed.base = job.base := by
  unfold Job.stopFailed
  split <;> exact ⟨rfl, rfl⟩

theorem expire_output (job : Job) (now : Nat) :
    (job.expire now).output = job.output ∧ (job.expire now).base = job.base := by
  unfold Job.expire
  split <;> exact ⟨rfl, rfl⟩

/-! ## Replies -/

theorem integer_eq_ok {value low high : Int} {n : Nat} :
    integer value low high = .ok n ↔ (low ≤ value ∧ value ≤ high) ∧ value.toNat = n := by
  unfold integer
  rw [ensure_bind_eq_ok]
  simp

/-- The position of the first byte of a reply. -/
def Reply.first (r : Reply) : Nat := r.nextCursor - r.data.length

/-- The bytes that were lost in front of a reply. -/
def Reply.lost (r : Reply) (appended : Bytes) : Bytes :=
  (appended.drop r.after).take (r.nextCursor - r.after - r.data.length)

/-- What a reply says about the bytes appended so far. -/
structure Received.Faithful (r : Received) (appended : Bytes) : Prop where
  fits : r.reply.data.length ≤ r.reply.nextCursor
  within : r.reply.nextCursor ≤ appended.length
  after_le : r.reply.after ≤ r.reply.first
  data : r.reply.data = (appended.drop r.reply.first).take r.reply.data.length
  gap : r.reply.gap = true
    ↔ ∃ p, r.reply.after ≤ p ∧ p < r.reply.first ∧ p < r.discarded
  onlyDiscarded : ∀ p, r.reply.after ≤ p → p < r.reply.first → p < r.discarded

theorem read_eq_ok (h : Buffered job appended) {after : Nat}
    {r : Reply} (hread : job.read after maxBytes = .ok r) :
    r.after = after ∧ Received.Faithful ⟨r, appended.length - job.output.length⟩ appended
      ∧ (after < appended.length → after < r.nextCursor) := by
  unfold Job.read at hread
  obtain ⟨a, ha, hread⟩ := bind_eq_ok.1 hread
  obtain ⟨m, hm, hread⟩ := bind_eq_ok.1 hread
  obtain ⟨hle, hread⟩ := ensure_bind_eq_ok.1 hread
  have hafter : a = after := by
    have := (integer_eq_ok.1 ha).2
    omega
  obtain ⟨⟨hpos, -⟩, hmax⟩ := integer_eq_ok.1 hm
  rw [hafter] at hread hle
  have hlength := h.length
  rw [hlength] at hle
  set start := max after job.base with hstart
  set data := (job.output.drop (start - job.base)).take m with hdata
  have hdrop : job.output.drop (start - job.base) = appended.drop start := by
    rw [h.output, List.drop_drop]
    congr 1
    omega
  have hdataLength : data.length = min m (appended.length - start) := by
    rw [hdata, hdrop, List.length_take, List.length_drop]
  have hstartLe : start ≤ appended.length := by omega
  injection hread with hread
  subst hread
  have hfirst : start + data.length - data.length = start := by omega
  refine ⟨rfl, ⟨?_, ?_, ?_, ?_, ?_, ?_⟩, ?_⟩
  · exact Nat.le_add_left _ _
  · show start + data.length ≤ appended.length
    omega
  · show after ≤ start + data.length - data.length
    omega
  · show data = (appended.drop (start + data.length - data.length)).take data.length
    rw [hfirst, hdataLength, hdata, hdrop, ← List.length_drop, List.take_eq_take_min]
  · show decide (after < job.base) = true ↔ ∃ p, after ≤ p ∧ p < start + data.length - data.length
      ∧ p < appended.length - job.output.length
    rw [decide_eq_true_iff, hfirst]
    constructor
    · intro hlt
      exact ⟨after, le_rfl, by omega, by omega⟩
    · rintro ⟨p, hp, -, hp'⟩
      omega
  · intro p hp hp'
    have hp'' : p < start + data.length - data.length := hp'
    show p < appended.length - job.output.length
    have hp''' : after ≤ p := hp
    omega
  · intro hlt
    show after < start + data.length
    by_cases hbase : after < job.base
    · omega
    · omega

theorem Received.Faithful.append (h : r.Faithful appended)
    (more : Bytes) : r.Faithful (appended ++ more) := by
  have hwithin := h.within
  have hfits := h.fits
  have hfirst : r.reply.first + r.reply.data.length = r.reply.nextCursor := by
    unfold Reply.first
    omega
  refine ⟨hfits, ?_, h.after_le, ?_, h.gap, h.onlyDiscarded⟩
  · rw [List.length_append]
    omega
  · rw [List.drop_append_of_le_length (by omega), List.take_append_of_le_length]
    · exact h.data
    · rw [List.length_drop]
      omega

/-- Every reply starts at the cursor the one before left. -/
def Follows : Nat → List Received → Nat → Prop
  | cursor, [], last => cursor = last
  | cursor, r :: rest, last => r.reply.after = cursor ∧ Follows r.reply.nextCursor rest last

theorem Follows.snoc {cursor last : Nat} {replies : List Received} (h : Follows cursor replies last)
    {r : Received} (hr : r.reply.after = last) :
    Follows cursor (replies ++ [r]) r.reply.nextCursor := by
  induction replies generalizing cursor with
  | nil =>
    have hcursor : cursor = last := h
    exact ⟨hr.trans hcursor.symm, rfl⟩
  | cons first replies ih => exact ⟨h.1, ih h.2⟩

/-! ## Runs -/

theorem step_read_ok {reply : Reply} (h : s.job.read s.cursor maxBytes = .ok reply) :
    s.step (.read maxBytes)
      = ⟨s.job, s.appended, reply.nextCursor,
        s.replies ++ [⟨reply, s.appended.length - s.job.output.length⟩]⟩ := by
  simp only [Session.step, h]

theorem step_read_error {e : Rejected}
    (h : s.job.read s.cursor maxBytes = .error e) : s.step (.read maxBytes) = s := by
  simp only [Session.step, h]

structure Session.Accounts (s : Session) : Prop where
  buffered : Buffered s.job s.appended
  follows : Follows 0 s.replies s.cursor
  cursor_le : s.cursor ≤ s.appended.length
  faithful : ∀ r ∈ s.replies, r.Faithful s.appended

theorem accounts_new (deadline : Nat) : (Session.new deadline).Accounts where
  buffered := ⟨rfl, Nat.zero_le _, fun h => absurd rfl h⟩
  follows := rfl
  cursor_le := Nat.zero_le _
  faithful := by simp [Session.new]

theorem Session.Accounts.of_job (h : s.Accounts)
    (hjob : job.output = s.job.output ∧ job.base = s.job.base) :
    ({ s with job := job } : Session).Accounts :=
  ⟨h.buffered.of_eq hjob.1 hjob.2, h.follows, h.cursor_le, h.faithful⟩

theorem Session.Accounts.step (h : s.Accounts) (event : Event) : (s.step event).Accounts := by
  cases event with
  | append data truncated =>
    refine ⟨h.buffered.append data truncated, h.follows, ?_, ?_⟩
    · show s.cursor ≤ (if s.job.state = .submitted then s.appended ++ data else s.appended).length
      have hle := h.cursor_le
      split
      · rw [List.length_append]
        omega
      · exact hle
    · intro r hr
      show r.Faithful (if s.job.state = .submitted then s.appended ++ data else s.appended)
      split
      · exact (h.faithful r hr).append data
      · exact h.faithful r hr
  | complete result => exact h.of_job (complete_output s.job result)
  | stop now => exact h.of_job (stop_output s.job now)
  | stopFailed => exact h.of_job (stopFailed_output s.job)
  | expire now => exact h.of_job (expire_output s.job now)
  | read maxBytes =>
    cases hread : s.job.read s.cursor maxBytes with
    | error e =>
      rw [step_read_error hread]
      exact h
    | ok reply =>
      obtain ⟨hafter, hfaithful, -⟩ := read_eq_ok h.buffered hread
      rw [step_read_ok hread]
      refine ⟨h.buffered, h.follows.snoc hafter, hfaithful.within, ?_⟩
      intro r hr
      rcases List.mem_append.1 hr with hr | hr
      · exact h.faithful r hr
      · rw [List.mem_singleton.1 hr]
        exact hfaithful

theorem Session.Accounts.run (h : s.Accounts) (events : List Event) :
    (s.run events).Accounts := by
  induction events generalizing s with
  | nil => exact h
  | cons event events ih => exact ih (h.step event)

/-! ## What the replies add up to -/

theorem Received.Faithful.piece (h : r.Faithful appended) : appended.take r.reply.nextCursor
      = appended.take r.reply.after ++ (r.reply.lost appended ++ r.reply.data) := by
  have hfits := h.fits
  have hafter := h.after_le
  have hfirst : r.reply.first + r.reply.data.length = r.reply.nextCursor := by
    unfold Reply.first
    omega
  have hlost : r.reply.after + (r.reply.nextCursor - r.reply.after - r.reply.data.length)
      = r.reply.first := by omega
  calc appended.take r.reply.nextCursor
      = appended.take (r.reply.first + r.reply.data.length) := by rw [hfirst]
    _ = appended.take r.reply.first ++ r.reply.data := by
        rw [List.take_add, ← h.data]
    _ = _ := by
        rw [← hlost, List.take_add, List.append_assoc]
        rfl

theorem Follows.pieces :
    ∀ {cursor last : Nat} {replies : List Received}, Follows cursor replies last →
      (∀ r ∈ replies, r.Faithful appended) →
      appended.take last = appended.take cursor
        ++ replies.flatMap fun r => r.reply.lost appended ++ r.reply.data
  | cursor, last, [], h, _ => by
    have hcursor : cursor = last := h
    rw [hcursor, List.flatMap_nil, List.append_nil]
  | cursor, last, r :: replies, h, hfaithful => by
    have hr := hfaithful r List.mem_cons_self
    rw [Follows.pieces h.2 fun r' hr' => hfaithful r' (List.mem_cons_of_mem _ hr'), hr.piece, h.1,
      List.flatMap_cons, List.append_assoc]

theorem Follows.apart :
    ∀ {cursor last : Nat} {replies : List Received}, Follows cursor replies last →
      (∀ r ∈ replies, r.Faithful appended) →
      (∀ r ∈ replies, cursor ≤ r.reply.after)
        ∧ replies.Pairwise fun r r' => r.reply.nextCursor ≤ r'.reply.after
  | _, _, [], _, _ => ⟨by simp, .nil⟩
  | cursor, last, r :: replies, h, hfaithful => by
    have hr := hfaithful r List.mem_cons_self
    obtain ⟨hlater, hpairwise⟩ :=
      Follows.apart h.2 fun r' hr' => hfaithful r' (List.mem_cons_of_mem _ hr')
    refine ⟨?_, List.pairwise_cons.2 ⟨hlater, hpairwise⟩⟩
    intro r' hr'
    rcases List.mem_cons.1 hr' with rfl | hr'
    · exact h.1.ge
    · have hfirst := hr.after_le
      have hcursor := h.1
      have := hlater r' hr'
      unfold Reply.first at hfirst
      omega

/-! ## The end of the output -/

theorem appended_grows (s : Session) (event : Event) : s.appended <+: (s.step event).appended := by
  cases event with
  | append data truncated =>
    show s.appended <+: if s.job.state = .submitted then s.appended ++ data else s.appended
    split
    · exact List.prefix_append _ _
    · exact List.prefix_rfl
  | complete result => exact List.prefix_rfl
  | stop now => exact List.prefix_rfl
  | stopFailed => exact List.prefix_rfl
  | expire now => exact List.prefix_rfl
  | read maxBytes =>
    cases hread : s.job.read s.cursor maxBytes with
    | error e =>
      have hstep := congrArg Session.appended (step_read_error hread)
      exact hstep ▸ List.prefix_rfl
    | ok reply =>
      have hstep := congrArg Session.appended (step_read_ok hread)
      exact hstep ▸ List.prefix_rfl

theorem appended_grows_run (s : Session) (events : List Event) :
    s.appended <+: (s.run events).appended := by
  induction events generalizing s with
  | nil => exact List.prefix_rfl
  | cons event events ih => exact (appended_grows s event).trans (ih (s.step event))

/-- The reads of a reader that asks for an admitted number of bytes. -/
def Event.isRead : Event → Bool
  | .read maxBytes => 1 ≤ maxBytes && maxBytes ≤ 16384
  | _ => false

theorem exists_reply (h : s.Accounts)
    (hsize : (Event.read maxBytes).isRead = true) (hcursor : (s.cursor : Int) ≤ maxInteger) :
    ∃ reply, s.job.read s.cursor maxBytes = .ok reply := by
  have hbounds : 1 ≤ maxBytes ∧ maxBytes ≤ 16384 := by simpa [Event.isRead] using hsize
  have hle := h.cursor_le
  have hlength := h.buffered.length
  unfold Job.read
  rw [integer_eq_ok.2 ⟨⟨Int.natCast_nonneg _, hcursor⟩, rfl⟩, ok_bind,
    integer_eq_ok.2 ⟨hbounds, rfl⟩, ok_bind]
  dsimp only
  rw [Int.toNat_natCast, ensure_of (by omega), ok_bind]
  exact ⟨_, rfl⟩

theorem cursor_step_le (s : Session) (h : s.Accounts) (event : Event) :
    s.cursor ≤ (s.step event).cursor := by
  cases event with
  | read maxBytes =>
    cases hread : s.job.read s.cursor maxBytes with
    | error e => rw [step_read_error hread]
    | ok reply =>
      rw [step_read_ok hread]
      obtain ⟨hafter, hfaithful, -⟩ := read_eq_ok h.buffered hread
      have hfirst := hfaithful.after_le
      have hle : reply.after ≤ reply.nextCursor := by
        unfold Reply.first at hfirst
        dsimp only at hfirst
        omega
      rw [hafter] at hle
      exact hle
  | append data truncated => exact le_rfl
  | complete result => exact le_rfl
  | stop now => exact le_rfl
  | stopFailed => exact le_rfl
  | expire now => exact le_rfl

theorem cursor_lt_read (h : s.Accounts) {event : Event} (hread : event.isRead = true)
    (hopen : s.cursor < s.appended.length) (hbound : (s.appended.length : Int) ≤ maxInteger) :
    s.cursor < (s.step event).cursor := by
  cases event with
  | read maxBytes =>
    obtain ⟨reply, hreply⟩ := exists_reply h hread (by omega)
    rw [step_read_ok hreply]
    exact (read_eq_ok h.buffered hreply).2.2 hopen
  | append data truncated => cases hread
  | complete result => cases hread
  | stop now => cases hread
  | stopFailed => cases hread
  | expire now => cases hread

theorem cursor_eq_of_reads (h : s.Accounts) {events : List Event}
    (hsame : (s.run events).appended = s.appended) (hbound : (s.appended.length : Int) ≤ maxInteger)
    (hreads : s.appended.length - s.cursor ≤ events.countP Event.isRead) :
    (s.run events).cursor = s.appended.length := by
  induction events generalizing s with
  | nil =>
    have hle := h.cursor_le
    rw [List.countP_nil] at hreads
    show s.cursor = s.appended.length
    omega
  | cons event events ih =>
    have hstep : (s.step event).appended = s.appended := by
      have hfirst := appended_grows s event
      have hrest := appended_grows_run (s.step event) events
      have hrun : ((s.step event).run events).appended = s.appended := hsame
      rw [hrun] at hrest
      exact hrest.eq_of_length_le hfirst.length_le
    have hmono := cursor_step_le s h event
    rw [← hstep]
    apply ih (h.step event)
    · rw [hstep]
      exact hsame
    · rw [hstep]
      exact hbound
    · rw [hstep]
      rw [List.countP_cons] at hreads
      by_cases hopen : s.cursor < s.appended.length
      · by_cases hread : event.isRead = true
        · have := cursor_lt_read h hread hopen hbound
          rw [if_pos hread] at hreads
          omega
        · rw [if_neg hread] at hreads
          omega
      · omega

/-- A reader from the start accounts for every byte, and reaches the end as long as `integer`
admits its cursor. -/
theorem output_cursors_account (deadline : Nat) (events : List Event) :
    let s := (Session.new deadline).run events
    Follows 0 s.replies s.cursor
      ∧ (∀ r ∈ s.replies, r.Faithful s.appended
        ∧ (r.reply.lost s.appended).length
          = r.reply.nextCursor - r.reply.after - r.reply.data.length)
      ∧ (s.replies.Pairwise fun r r' => r.reply.nextCursor ≤ r'.reply.after)
      ∧ s.appended.take s.cursor
        = s.replies.flatMap (fun r => r.reply.lost s.appended ++ r.reply.data)
      ∧ ∀ more : List Event, (s.run more).appended = s.appended →
        (s.appended.length : Int) ≤ maxInteger →
        s.appended.length - s.cursor ≤ more.countP Event.isRead →
        (s.run more).cursor = s.appended.length := by
  intro s
  have h : s.Accounts := (accounts_new deadline).run events
  refine ⟨h.follows, ?_, (h.follows.apart h.faithful).2, ?_, ?_⟩
  · intro r hr
    have hfaithful := h.faithful r hr
    refine ⟨hfaithful, ?_⟩
    have hwithin := hfaithful.within
    have hfirst := hfaithful.after_le
    have hfits := hfaithful.fits
    unfold Reply.first at hfirst
    rw [Reply.lost, List.length_take, List.length_drop]
    omega
  · rw [h.follows.pieces h.faithful, List.take_zero, List.nil_append]
  · intro more hsame hbound hreads
    exact cursor_eq_of_reads h hsame hbound hreads

namespace Sample

/-- Three bytes are appended, two are read. -/
def session : Session := (Session.new 0).run [.append [1, 2, 3] false, .read 2]

theorem reaches_the_end : (session.run [.read 16384]).cursor = 3 :=
  (output_cursors_account 0 [.append [1, 2, 3] false, .read 2]).2.2.2.2 [.read 16384] (by decide)
    (by decide) (by decide)

end Sample

/-! ## A cursor that `integer` refuses -/

theorem read_far_cursor (job : Job) {after : Nat} (hafter : maxInteger < after) (maxBytes : Int) :
    job.read after maxBytes = .error (.mk "invalid_integer") := by
  have hrefused : integer (after : Int) 0 maxInteger = .error (.mk "invalid_integer") := by
    unfold integer ensure
    rw [if_neg (by omega)]
    rfl
  unfold Job.read
  rw [hrefused]
  rfl

variable {job : Job} {s : Session}

theorem cursor_of_far (hfar : maxInteger < s.cursor) (n : Nat) (maxBytes : Int) :
    s.run (List.replicate n (.read maxBytes)) = s := by
  induction n with
  | zero => rfl
  | succ n ih =>
    have hstep : s.step (.read maxBytes) = s :=
      step_read_error (read_far_cursor s.job hfar maxBytes)
    show (s.step (.read maxBytes)).run (List.replicate n (.read maxBytes)) = s
    rw [hstep]
    exact ih

theorem read_nextCursor {after maxBytes : Int} {r : Reply} (h : job.read after maxBytes = .ok r) :
    job.base ≤ r.nextCursor ∧ r.nextCursor ≤ max after.toNat job.base + maxBytes.toNat := by
  unfold Job.read at h
  obtain ⟨a, ha, h⟩ := bind_eq_ok.1 h
  obtain ⟨m, hm, h⟩ := bind_eq_ok.1 h
  obtain ⟨-, h⟩ := ensure_bind_eq_ok.1 h
  have hafter := (integer_eq_ok.1 ha).2
  have hmax := (integer_eq_ok.1 hm).2
  injection h with h
  subst h
  have hlength := List.length_take_le m (job.output.drop (max a job.base - job.base))
  constructor
  · show job.base ≤ max a job.base + _
    omega
  · show max a job.base + _ ≤ _
    omega

theorem append_base (h : job.state = .submitted) (data : Bytes) (truncated : Bool) :
    (job.append data truncated).base
      = job.base + ((job.output ++ data).length - maxOutput) := by
  unfold Job.append
  rw [if_neg (not_not.2 h)]

theorem far_read (h : s.Accounts) (hbase : maxInteger < s.job.base)
    (hcursor : s.cursor = 0) (hfull : 1 < s.job.output.length) :
    maxInteger < (s.step (.read 1)).cursor
      ∧ (s.step (.read 1)).cursor < (s.step (.read 1)).appended.length := by
  have hinteger : (0 : Int) ≤ maxInteger := by decide
  obtain ⟨reply, hreply⟩ := exists_reply h (by decide : (Event.read 1).isRead = true)
    (by rw [hcursor]; exact hinteger)
  obtain ⟨hlow, hhigh⟩ := read_nextCursor hreply
  have hone : (1 : Int).toNat = 1 := rfl
  have hlength := h.buffered.length
  rw [step_read_ok hreply]
  rw [Int.toNat_natCast, hone] at hhigh
  constructor
  · show maxInteger < reply.nextCursor
    omega
  · show reply.nextCursor < s.appended.length
    omega

theorem far_session {data : Bytes} (hlong : maxInteger + maxOutput < data.length) :
    maxInteger < ((Session.new 0).run [.append data false, .read 1]).cursor
      ∧ ((Session.new 0).run [.append data false, .read 1]).cursor
        < ((Session.new 0).run [.append data false, .read 1]).appended.length := by
  have hbase : ((Session.new 0).step (.append data false)).job.base = data.length - maxOutput := by
    have hstate : (Job.new 0).state = .submitted := rfl
    have hbase := append_base hstate data false
    have hlength : ((Job.new 0).output ++ data).length = data.length := rfl
    have hzero : (Job.new 0).base = 0 := rfl
    rw [hlength, hzero, Nat.zero_add] at hbase
    exact hbase
  have hcursor : ((Session.new 0).step (.append data false)).cursor = 0 := rfl
  have haccounts : ((Session.new 0).step (.append data false)).Accounts :=
    (accounts_new 0).step (.append data false)
  have hrun (s : Session) (a b : Event) : s.run [a, b] = (s.step a).step b := rfl
  rw [hrun]
  generalize (Session.new 0).step (.append data false) = s at *
  have hmax : maxOutput = 65536 := rfl
  have hinteger : maxInteger = 9007199254740991 := rfl
  have hfull := haccounts.buffered.full (by omega)
  exact far_read haccounts (by omega) hcursor (by omega)

namespace Sample

/-- More than `integer` admits, and more than the buffer holds. -/
def far : Bytes := List.replicate 9007199254840992 0

theorem length_far : far.length = 9007199254840992 := List.length_replicate

/-- However often it asks, the reader does not reach the end. -/
theorem end_not_reached :
    ¬ ∀ (deadline : Nat) (events : List Event),
      ∃ n, ∀ maxBytes : Int, (Event.read maxBytes).isRead = true →
        let s := (Session.new deadline).run events
        (s.run (List.replicate n (.read maxBytes))).cursor = s.appended.length := by
  intro hall
  obtain ⟨n, hn⟩ := hall 0 [.append far false, .read 1]
  have hlong : maxInteger + maxOutput < far.length := by
    rw [length_far]
    decide
  obtain ⟨hfar, hopen⟩ := far_session hlong
  have hend : (((Session.new 0).run [.append far false, .read 1]).run
      (List.replicate n (.read 1))).cursor = _ := hn 1 (by decide)
  rw [cursor_of_far hfar] at hend
  exact absurd hend hopen.ne

end Sample

end IntegrityGuardian.ExecutionBridge
