import Valops.ModelBroker.Handle

/-!
# How a request ends

Every path of `handle`, with the operations it has performed and the states they met: the request
ends before the limits, at the limits, or on its way to the provider and back; a refusal ends with its
record, the audit client and the reply.

Main results: `checkRequest_path`, `forward_path`, `handle_path`. Each is an inversion: the constructors of
the three relations are all the ways in which the program can end.
-/

set_option autoImplicit false

namespace Valops.ModelBroker

open Py Conc

/-- An operation of a request's thread, with the session before and after. -/
abbrev Performed (N : Numbers) := Event (Session N) Op Res

section Outcome

variable {N : Numbers} (lib : Library) (key : PyStr) (s : Session N) (h : HttpRequest)

/-- A length that is served. -/
def Fits (n : Int) : Prop := 0 < n ∧ n ≤ MAX_REQUEST

/-- The ways in which `checkRequest` ends. -/
inductive Admitting : List (Performed N) → Except Halt (Fields × Int × Int) → Prop
  | length {e : Exc} (len : contentLength lib h = .error e) : Admitting [] (.error (.raised e))
  | size {n : Int} (len : contentLength lib h = .ok n) (fits : ¬ Fits n) :
      Admitting [] (refuse 400 "size" "request body missing or too large")
  | unread {n : Int} {e : Exc} (t : Session N) (len : contentLength lib h = .ok n) (fits : Fits n) :
      Admitting [⟨t, .read n, .error e, t⟩] (.error (.raised e))
  | checked {n : Int} {raw : Bytes} {e : Halt} (t : Session N) (len : contentLength lib h = .ok n)
      (fits : Fits n) (check : checkBody lib s h raw = .error e) :
      Admitting [⟨t, .read n, .ok raw, t⟩] (.error e)
  | limited {n : Int} {raw : Bytes} {body : Fields} {e : Halt} (t u : Session N)
      (len : contentLength lib h = .ok n) (fits : Fits n)
      (check : checkBody lib s h raw = .ok body)
      (limit : limits lib.builtins u raw.length h.rest body = .error e) :
      Admitting [⟨t, .read n, .ok raw, t⟩, ⟨u, .limits raw.length h.rest body, .error e, u⟩] (.error e)
  | admitted {n : Int} {raw : Bytes} {body : Fields} {adm : Admission N} (t u : Session N)
      (len : contentLength lib h = .ok n) (fits : Fits n)
      (check : checkBody lib s h raw = .ok body)
      (limit : limits lib.builtins u raw.length h.rest body = .ok adm) :
      Admitting [⟨t, .read n, .ok raw, t⟩, ⟨u, .limits raw.length h.rest body,
        .ok (adm.body, adm.est_in, adm.clamp), adm.session⟩] (.ok (adm.body, adm.est_in, adm.clamp))

/-- What is sent for a body that has passed the limits. -/
structure Sends (stream : Bool) (body : Fields) (out_body : Bytes) (o : Outbound) : Prop where
  encode : encodeBody body = .ok out_body
  out : outbound lib key s h stream out_body = .ok o

/-- The meter as an operation. -/
def metering (t : Session N) (usage : Int × Int) (status : Nat) : Performed N :=
  ⟨t, .meter usage status, (meter t usage status).1, (meter t usage status).2⟩

/-- The ways in which `forward` ends. -/
inductive Forwarding (stream : Bool) (body : Fields) (est_in clamp : Int) :
    List (Performed N) → Except Halt Unit → Prop
  | unsent {e : Exc} (none : ¬ ∃ out_body o, Sends lib key s h stream body out_body o) :
      Forwarding stream body est_in clamp [] (.error (.raised e))
  | broken {e : Exc} {out_body : Bytes} {o : Outbound} (t : Session N)
      (sends : Sends lib key s h stream body out_body o) :
      Forwarding stream body est_in clamp [⟨t, .forward o stream, .error e, t⟩] (.error (.raised e))
  | unreported {e : Exc} {out_body : Bytes} {o : Outbound} {x : Exchange} (t : Session N)
      (sends : Sends lib key s h stream body out_body o)
      (report : reported lib s stream (relay stream x).2 = .error e) :
      Forwarding stream body est_in clamp [⟨t, .forward o stream, .ok x, t⟩] (.error (.raised e))
  | unmetered {e : Exc} {out_body : Bytes} {o : Outbound} {x : Exchange} {usage : Option (Int × Int)}
      (t u : Session N) (sends : Sends lib key s h stream body out_body o)
      (report : reported lib s stream (relay stream x).2 = .ok usage)
      (meters : (meter u (charge usage (relay stream x).1 est_in clamp) (relay stream x).1).1 =
        .error e) :
      Forwarding stream body est_in clamp [⟨t, .forward o stream, .ok x, t⟩,
        metering u (charge usage (relay stream x).1 est_in clamp) (relay stream x).1]
        (.error (.raised e))
  | metered {out_body : Bytes} {o : Outbound} {x : Exchange} {usage : Option (Int × Int)}
      {audited : Except Exc Unit} {r : Except Exc Unit} (t u v : Session N)
      (sends : Sends lib key s h stream body out_body o)
      (report : reported lib s stream (relay stream x).2 = .ok usage)
      (meters : (meter u (charge usage (relay stream x).1 est_in clamp) (relay stream x).1).1 = .ok ()) :
      Forwarding stream body est_in clamp [⟨t, .forward o stream, .ok x, t⟩,
        metering u (charge usage (relay stream x).1 est_in clamp) (relay stream x).1,
        ⟨v, .submit (py "model_request") (requestData lib (relay stream x).1 stream
          (charge usage (relay stream x).1 est_in clamp) out_body (relay stream x).2), audited, v⟩]
        (raising r)

/-- The entry of a refusal. -/
def refusalData (r : Refusal) : Fields :=
  [(py "cause", .str r.cause), (py "message", .str (lib.builtins.format r.message))]

/-- The body of the reply to a refusal. -/
def refusalBody (r : Refusal) : Json :=
  error_body s.provider r.status (py "valops model broker refused: " ++ lib.builtins.format r.message)

/-- The ways in which a refusal ends. -/
inductive Refusing (r : Refusal) : List (Performed N) → Prop
  | unaudited {e : PyErr} (t u : Session N) :
      Refusing r [⟨t, .refused r, (), t.refused r⟩,
        ⟨u, .submit (py "model_refusal") (refusalData lib r), .error (.other e), u⟩]
  | replied {audited replied : Except Exc Unit} (t u v : Session N)
      (audit : ∀ e, audited ≠ .error (.other e)) :
      Refusing r [⟨t, .refused r, (), t.refused r⟩,
        ⟨u, .submit (py "model_refusal") (refusalData lib r), audited, u⟩,
        ⟨v, .reply r.status (refusalBody lib s r), replied, v⟩]

/-- The ways in which `handle` ends. -/
inductive Handling : List (Performed N) → Prop
  | raised {e : Exc} {front : List (Performed N)} (admits : Admitting lib s h front (.error (.raised e))) :
      Handling front
  | refused {r : Refusal} {front back : List (Performed N)}
      (admits : Admitting lib s h front (.error (.refusal r))) (refuses : Refusing lib s r back) :
      Handling (front ++ back)
  | passed {body : Fields} {est_in clamp : Int} {front back : List (Performed N)}
      {r : Except Halt Unit} (admits : Admitting lib s h front (.ok (body, est_in, clamp)))
      (forwards : Forwarding lib key s h (is_stream s.provider h.rest body) body est_in clamp back r) :
      Handling (front ++ back)

section Inversion

variable {lib key s h} {α : Type} {tr : List (Performed N)}

/-- The path of a computation. -/
theorem pathE_compute {x r : Except Halt α} :
    PathE (exec N lib.builtins) (compute x) tr r ↔ tr = [] ∧ r = x := path_ret

/-- The path of an operation that may raise. -/
theorem pathE_call {p : Prog Op Res (Except Exc α)} {r : Except Halt α} :
    PathE (exec N lib.builtins) (call p) tr r ↔
      ∃ x, Path (exec N lib.builtins) p tr x ∧ r = raising x := by
  constructor
  · intro h
    obtain ⟨front, back, x, rfl, hp, hret⟩ := path_bind.1 h
    obtain ⟨rfl, rfl⟩ := path_ret.1 hret
    rw [List.append_nil]
    exact ⟨x, hp, rfl⟩
  · rintro ⟨x, hp, rfl⟩
    exact path_bind.2 ⟨tr, [], x, (List.append_nil tr).symm, hp, .ret _⟩

/-- The path of `_audit`. -/
theorem audit_path {event : String} {data : Fields} {r : Except Exc Unit}
    (h : Path (exec N lib.builtins) (_audit event data) tr r) :
    ∃ t audited, tr = [⟨t, .submit (py event) data, audited, t⟩] ∧
      ((∃ e, audited = .error (.other e) ∧ r = .error (.other e)) ∨
        ((∀ e, audited ≠ .error (.other e)) ∧ r = .ok ())) := by
  obtain ⟨t, audited, u, rest, rfl, rfl, hret⟩ := path_step.1 h
  rcases audited with (_ | e) | _
  · obtain ⟨rfl, rfl⟩ := path_ret.1 hret
    exact ⟨_, _, rfl, .inr ⟨nofun, rfl⟩⟩
  · obtain ⟨rfl, rfl⟩ := path_ret.1 hret
    exact ⟨_, _, rfl, .inl ⟨e, rfl, rfl⟩⟩
  · obtain ⟨rfl, rfl⟩ := path_ret.1 hret
    exact ⟨_, _, rfl, .inr ⟨nofun, rfl⟩⟩

theorem not_fits {n : Int} : ¬ Fits n ↔ n ≤ 0 ∨ MAX_REQUEST < n := by
  unfold Fits
  omega

theorem raising_eq_error {x : Except Exc α} {e : Halt} :
    .error e = raising x ↔ ∃ e', e = .raised e' ∧ x = .error e' := by
  cases x with
  | ok a => simp [raising]
  | error e' => simp [raising]

theorem checkRequest_path {r : Except Halt (Fields × Int × Int)}
    (hpath : PathE (exec N lib.builtins) (checkRequest lib s h) tr r) : Admitting lib s h tr r := by
  rcases pathE_bind.1 hpath with ⟨e, rfl, hlen⟩ | ⟨_, back, n, rfl, hlen, hsize⟩
  · obtain ⟨rfl, hlen_eq⟩ := pathE_compute.1 hlen
    obtain ⟨e', rfl, hlen_error⟩ := raising_eq_error.1 hlen_eq
    exact .length hlen_error
  obtain ⟨rfl, hlen_eq⟩ := pathE_compute.1 hlen
  have len : contentLength lib h = .ok n := raising_eq_ok.1 hlen_eq.symm
  rw [List.nil_append]
  split at hsize
  · rename_i hout
    obtain ⟨rfl, rfl⟩ := pathE_compute.1 hsize
    exact .size len (not_fits.2 hout)
  rename_i hin
  have fits : Fits n := not_not.1 fun hnot => hin (not_fits.1 hnot)
  rcases pathE_bind.1 hsize with ⟨e, rfl, hread⟩ | ⟨_, back, raw, rfl, hread, hbody⟩
  · obtain ⟨x, hx, hraise⟩ := pathE_call.1 hread
    obtain ⟨t, t', rfl, rfl⟩ := path_perform.1 hx
    obtain ⟨e', rfl, rfl⟩ := raising_eq_error.1 hraise
    exact .unread _ len fits
  obtain ⟨x, hx, hraise⟩ := pathE_call.1 hread
  obtain ⟨t, t', rfl, rfl⟩ := path_perform.1 hx
  obtain rfl : x = .ok raw := raising_eq_ok.1 hraise.symm
  rcases pathE_bind.1 hbody with ⟨e, rfl, hcheck⟩ | ⟨_, back, body, rfl, hcheck, hlimits⟩
  · obtain ⟨rfl, hcheck_eq⟩ := pathE_compute.1 hcheck
    exact .checked _ len fits hcheck_eq.symm
  obtain ⟨rfl, hcheck_eq⟩ := pathE_compute.1 hcheck
  obtain ⟨u, u', rfl, hexec⟩ := path_perform.1 hlimits
  cases hl : limits lib.builtins u raw.length h.rest body with
  | error e =>
    simp only [exec, hl] at hexec
    obtain ⟨rfl, rfl⟩ := hexec
    exact .limited _ _ len fits hcheck_eq.symm hl
  | ok adm =>
    simp only [exec, hl] at hexec
    obtain ⟨rfl, rfl⟩ := hexec
    exact .admitted _ _ len fits hcheck_eq.symm hl

/-- The meter as it is performed. -/
theorem metering_eq {t t' : Session N} {usage : Int × Int} {status : Nat} {r : Except Exc Unit}
    (h : exec N lib.builtins t (.meter usage status) r t') :
    (⟨t, .meter usage status, r, t'⟩ : Performed N) = metering t usage status ∧
      (meter t usage status).1 = r := by
  have hm : meter t usage status = (r, t') := h
  rw [metering, hm]
  exact ⟨rfl, rfl⟩

/-- What is not sent. -/
theorem not_sends {stream : Bool} {body : Fields} {e : Exc} {out_body : Bytes}
    (encode : encodeBody body = .ok out_body) (out : outbound lib key s h stream out_body = .error e) :
    ¬ ∃ out_body o, Sends lib key s h stream body out_body o := by
  rintro ⟨out_body', o, encode', out'⟩
  rw [encode] at encode'
  cases encode'
  rw [out] at out'
  cases out'

theorem forward_path {body : Fields} {est_in clamp : Int} {r : Except Halt Unit}
    (hpath : PathE (exec N lib.builtins) (forward lib key s h body est_in clamp) tr r) :
    Forwarding lib key s h (is_stream s.provider h.rest body) body est_in clamp tr r := by
  rcases pathE_bind.1 hpath with ⟨e, rfl, henc⟩ | ⟨_, back, out_body, rfl, henc, hrest⟩
  · obtain ⟨rfl, henc_eq⟩ := pathE_compute.1 henc
    obtain ⟨e', rfl, henc_error⟩ := raising_eq_error.1 henc_eq
    exact .unsent fun ⟨_, _, hsends⟩ => by rw [hsends.encode] at henc_error; cases henc_error
  obtain ⟨rfl, henc_eq⟩ := pathE_compute.1 henc
  have encode : encodeBody body = .ok out_body := raising_eq_ok.1 henc_eq.symm
  rw [List.nil_append]
  rcases pathE_bind.1 hrest with ⟨e, rfl, hout⟩ | ⟨_, back, o, rfl, hout, hsend⟩
  · obtain ⟨rfl, hout_eq⟩ := pathE_compute.1 hout
    obtain ⟨e', rfl, hout_error⟩ := raising_eq_error.1 hout_eq
    exact .unsent (not_sends encode hout_error)
  obtain ⟨rfl, hout_eq⟩ := pathE_compute.1 hout
  have sends : Sends lib key s h (is_stream s.provider h.rest body) body out_body o :=
    ⟨encode, raising_eq_ok.1 hout_eq.symm⟩
  rw [List.nil_append]
  rcases pathE_bind.1 hsend with ⟨e, rfl, hforward⟩ | ⟨_, back, x, rfl, hforward, hanswer⟩
  · obtain ⟨x, hx, hraise⟩ := pathE_call.1 hforward
    obtain ⟨t, t', rfl, rfl⟩ := path_perform.1 hx
    obtain ⟨e', rfl, rfl⟩ := raising_eq_error.1 hraise
    exact .broken _ sends
  obtain ⟨y, hy, hraise⟩ := pathE_call.1 hforward
  obtain ⟨t, t', rfl, rfl⟩ := path_perform.1 hy
  obtain rfl : y = .ok x := raising_eq_ok.1 hraise.symm
  rcases pathE_bind.1 hanswer with ⟨e, rfl, hreport⟩ | ⟨_, back, usage, rfl, hreport, hcharge⟩
  · obtain ⟨rfl, hreport_eq⟩ := pathE_compute.1 hreport
    obtain ⟨e', rfl, hreport_error⟩ := raising_eq_error.1 hreport_eq
    exact .unreported _ sends hreport_error
  obtain ⟨rfl, hreport_eq⟩ := pathE_compute.1 hreport
  have report := raising_eq_ok.1 hreport_eq.symm
  rcases pathE_bind.1 hcharge with ⟨e, rfl, hmeter⟩ | ⟨_, back, _, rfl, hmeter, haudit⟩
  · obtain ⟨y, hy, hraise⟩ := pathE_call.1 hmeter
    obtain ⟨u, u', rfl, hexec⟩ := path_perform.1 hy
    obtain ⟨e', rfl, rfl⟩ := raising_eq_error.1 hraise
    obtain ⟨hev, hres⟩ := metering_eq hexec
    rw [hev]
    exact .unmetered t' u sends report hres
  obtain ⟨y, hy, hraise⟩ := pathE_call.1 hmeter
  obtain ⟨u, u', rfl, hexec⟩ := path_perform.1 hy
  obtain rfl : y = .ok () := raising_eq_ok.1 hraise.symm
  obtain ⟨hev, hres⟩ := metering_eq hexec
  obtain ⟨y, hy, rfl⟩ := pathE_call.1 haudit
  obtain ⟨v, audited, rfl, -⟩ := audit_path hy
  rw [hev]
  exact .metered t' u v sends report hres

/-- Nothing is refused after the limits. -/
theorem Forwarding.unrefused {stream : Bool} {body : Fields} {est_in clamp : Int}
    {r : Except Halt Unit} (hf : Forwarding lib key s h stream body est_in clamp tr r) :
    r = .ok () ∨ ∃ e, r = .error (.raised e) := by
  cases hf with
  | unsent none => exact .inr ⟨_, rfl⟩
  | broken t sends => exact .inr ⟨_, rfl⟩
  | unreported t sends report => exact .inr ⟨_, rfl⟩
  | unmetered t u sends report meters => exact .inr ⟨_, rfl⟩
  | @metered _ _ _ _ _ r t u v sends report meters =>
    cases r with
    | ok a => exact .inl rfl
    | error e => exact .inr ⟨e, rfl⟩

theorem refusal_path {r : Refusal} {x : Except Exc Unit}
    (hpath : Path (exec N lib.builtins) (onRefusal lib s r) tr x) : Refusing lib s r tr := by
  obtain ⟨t, _, t', rest, rfl, rfl, hrest⟩ := path_step.1 hpath
  obtain ⟨_, back, y, rfl, hy, hreply⟩ :=
    (path_bind (p := _audit "model_refusal" (refusalData lib r))).1 hrest
  obtain ⟨u, audited, rfl, hcase⟩ := audit_path hy
  rcases hcase with ⟨e, rfl, rfl⟩ | ⟨hordinary, rfl⟩
  · obtain ⟨rfl, -⟩ := path_ret.1 hreply
    exact .unaudited t u
  · obtain ⟨v, replied, v', rest, rfl, rfl, hend⟩ := path_step.1 hreply
    obtain rfl : rest = [] := by
      rcases replied with (_ | (_ | _ | _ | _ | _)) | _ <;> exact (path_ret.1 hend).1
    exact .replied t u _ hordinary

/-- **The paths of `handle`.** -/
theorem handle_path {r : Except Exc Unit}
    (hpath : Path (exec N lib.builtins) (handle lib key s h) tr r) : Handling lib key s h tr := by
  obtain ⟨front, back, y, rfl, hy, hend⟩ := path_bind.1 hpath
  rcases pathE_bind.1 hy with ⟨e, rfl, hchecked⟩ | ⟨front, mid, ⟨body, est_in, clamp⟩, rfl, hchecked, hfwd⟩
  · have hadmits := checkRequest_path hchecked
    cases e with
    | raised e =>
      obtain ⟨rfl, -⟩ := path_ret.1 hend
      rw [List.append_nil]
      exact .raised hadmits
    | refusal c => exact .refused hadmits (refusal_path hend)
  · have hforwards := forward_path hfwd
    rcases hforwards.unrefused with rfl | ⟨e, rfl⟩
    · obtain ⟨rfl, -⟩ := path_ret.1 hend
      rw [List.append_nil]
      exact .passed (checkRequest_path hchecked) hforwards
    · obtain ⟨rfl, -⟩ := path_ret.1 hend
      rw [List.append_nil]
      exact .passed (checkRequest_path hchecked) hforwards

/-- The path of a request that is admitted. -/
theorem admitted_path {n : Int} {raw : Bytes} {body : Fields} {adm : Admission N} (t u : Session N)
    (len : contentLength lib h = .ok n) (fits : Fits n) (check : checkBody lib s h raw = .ok body)
    (limit : limits lib.builtins u raw.length h.rest body = .ok adm) :
    PathE (exec N lib.builtins) (checkRequest lib s h)
      [⟨t, .read n, .ok raw, t⟩, ⟨u, .limits raw.length h.rest body,
        .ok (adm.body, adm.est_in, adm.clamp), adm.session⟩]
      (.ok (adm.body, adm.est_in, adm.clamp)) := by
  refine pathE_bind.2 (.inr ⟨[], _, n, rfl, pathE_compute.2 ⟨rfl, (raising_eq_ok.2 len).symm⟩, ?_⟩)
  rw [if_neg fun hout => not_fits.2 hout fits]
  refine pathE_bind.2 (.inr ⟨[⟨t, .read n, .ok raw, t⟩], _, raw, rfl,
    pathE_call.2 ⟨.ok raw, path_perform.2 ⟨t, t, rfl, rfl⟩, rfl⟩, ?_⟩)
  refine pathE_bind.2 (.inr ⟨[], _, body, rfl, pathE_compute.2 ⟨rfl, check.symm⟩, ?_⟩)
  refine path_perform.2 ⟨u, adm.session, rfl, ?_⟩
  refine exec_limits.mpr ?_
  rw [limit]
  exact ⟨rfl, rfl⟩

/-- The path of the meter. -/
theorem metering_path {t : Session N} {usage : Int × Int} {status : Nat}
    (h : (meter t usage status).1 = .ok ()) :
    PathE (exec N lib.builtins) (call (ask (.meter usage status))) [metering t usage status]
      (.ok ()) := by
  have hm : meter t usage status = (.ok (), (meter t usage status).2) := by rw [← h]
  refine pathE_call.2 ⟨.ok (), path_perform.2 ⟨t, (meter t usage status).2, ?_, hm⟩, rfl⟩
  rw [metering, h]

/-- The path of a request that is forwarded and metered. -/
theorem served_path {stream : Bool} {n : Int} {raw : Bytes} {body : Fields} {adm : Admission N}
    {out_body : Bytes} {o : Outbound} {x : Exchange} {usage : Option (Int × Int)}
    (t u v w z : Session N) (len : contentLength lib h = .ok n) (fits : Fits n)
    (check : checkBody lib s h raw = .ok body)
    (limit : limits lib.builtins u raw.length h.rest body = .ok adm)
    (hstream : is_stream s.provider h.rest adm.body = stream)
    (sends : Sends lib key s h stream adm.body out_body o)
    (report : reported lib s stream (relay stream x).2 = .ok usage)
    (meters : (meter w (charge usage (relay stream x).1 adm.est_in adm.clamp) (relay stream x).1).1 =
      .ok ()) :
    Path (exec N lib.builtins) (handle lib key s h)
      [⟨t, .read n, .ok raw, t⟩,
        ⟨u, .limits raw.length h.rest body, .ok (adm.body, adm.est_in, adm.clamp), adm.session⟩,
        ⟨v, .forward o stream, .ok x, v⟩,
        metering w (charge usage (relay stream x).1 adm.est_in adm.clamp) (relay stream x).1,
        ⟨z, .submit (py "model_request") (requestData lib (relay stream x).1 stream
          (charge usage (relay stream x).1 adm.est_in adm.clamp) out_body (relay stream x).2),
          .ok (), z⟩] (.ok ()) := by
  subst hstream
  refine path_bind.2 ⟨_, [], .ok (), (List.append_nil _).symm, pathE_bind.2 (.inr ⟨_, _, _, rfl,
    admitted_path t u len fits check limit, ?_⟩), .ret _⟩
  refine pathE_bind.2 (.inr ⟨[], _, out_body, rfl,
    pathE_compute.2 ⟨rfl, (raising_eq_ok.2 sends.encode).symm⟩, ?_⟩)
  refine pathE_bind.2 (.inr ⟨[], _, o, rfl, pathE_compute.2 ⟨rfl, (raising_eq_ok.2 sends.out).symm⟩, ?_⟩)
  refine pathE_bind.2 (.inr ⟨[_], _, x, rfl,
    pathE_call.2 ⟨.ok x, path_perform.2 ⟨v, v, rfl, rfl⟩, rfl⟩, ?_⟩)
  refine pathE_bind.2 (.inr ⟨[], _, usage, rfl, pathE_compute.2 ⟨rfl, (raising_eq_ok.2 report).symm⟩, ?_⟩)
  refine pathE_bind.2 (.inr ⟨[_], _, (), rfl, metering_path meters, ?_⟩)
  exact pathE_call.2 ⟨.ok (), .step rfl (.ret _), rfl⟩

end Inversion

end Outcome

end Valops.ModelBroker
