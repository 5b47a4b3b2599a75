/-
SeastarLive.Mpeg.FrameDelivery — a frame that was written arrives.

* `received`: what a receiver of a PID has put together. The tables leave it as it is
  (`received_sendTables`), and the packets of a PES packet add a unit (`received_sendFrame`).
* `write_delivers`: what `mpeg_ts_write` does for the receiver of its PID, where it returns 0.
-/
import SeastarLive.Mpeg.TsMuxerTheorems

namespace SeastarLive

open LinePacket Machine

namespace TsMuxer

/-- What a receiver of a PID has put together. -/
def received (output : TsOutput) (pid : Nat) : List (List UInt8) :=
  units (on pid (output.packets.map tsPacket))

section Received

variable (func : TsFunc) {c : Nat}

theorem received_writeSection {pid : Nat} (hc : pid % 8192 ≠ c) (cc : Nat) (bytes : List UInt8)
    (output : TsOutput) :
    received (writeSection func pid cc bytes output).2.2 c = received output c := by
  have hother : ∀ p ∈ [sectionPacket pid cc bytes].map tsPacket, p.channel ≠ c := by
    refine List.forall_mem_singleton.mpr ?_
    rw [tsPacket_sectionPacket]
    exact hc
  unfold writeSection
  split
  · rfl
  · change units (on c ((output.packets ++ [_]).map tsPacket)) = _
    rw [List.map_append, units_on_other hother]
    rfl

theorem received_writePmts {pmts : List PmtT} (hc : ∀ p ∈ pmts, p.pid % 8192 ≠ c)
    (output : TsOutput) : received (writePmts func pmts output).2.2 c = received output c := by
  induction pmts generalizing output with
  | nil => rfl
  | cons pmt rest ih =>
      obtain ⟨hpmt, hrest⟩ := List.forall_mem_cons.mp hc
      have hsection := received_writeSection func hpmt pmt.cc (pmtWrite pmt) output
      unfold writePmts
      dsimp only
      split
      · exact hsection
      · exact (ih hrest _).trans hsection

/-- The tables are not seen on a PID of none of them. -/
theorem received_emitTables (dts : Int) {m : TsMuxer} (hsdt : tsPidSdt ≠ c) (hpat : tsPidPat ≠ c)
    (hc : ∀ p ∈ m.pat.pmts, p.pid % 8192 ≠ c) :
    received (emitTables func dts m).2.output c = received m.output c
      ∧ (emitTables func dts m).2.withAud = m.withAud := by
  have hemitted : ∀ (pid : Nat) (bytes : List UInt8) (t : TsMuxer), pid % 8192 ≠ c →
      received (emitSection func pid bytes t).2.output c = received t.output c :=
    fun pid bytes t hpid => received_writeSection func hpid _ bytes _
  have hfirst : (emitSdt func dts m).2.pat.pmts = m.pat.pmts
      ∧ received (emitSdt func dts m).2.output c = received m.output c
      ∧ (emitSdt func dts m).2.withAud = m.withAud := by
    unfold emitSdt
    split
    · exact ⟨rfl, hemitted tsPidSdt _ _ hsdt, rfl⟩
    · exact ⟨rfl, rfl, rfl⟩
  unfold emitTables
  generalize emitSdt func dts m = sdt at hfirst
  refine andThen_spec (P := fun t => t.pat.pmts = m.pat.pmts
      ∧ received t.output c = received m.output c ∧ t.withAud = m.withAud) hfirst
    (fun _ ht => ht.2) fun t ht => ?_
  refine andThen_spec (P := fun t => t.pat.pmts = m.pat.pmts
      ∧ received t.output c = received m.output c ∧ t.withAud = m.withAud)
    ⟨ht.1, (hemitted tsPidPat _ t hpat).trans ht.2.1, ht.2.2⟩
    (fun _ hu => hu.2) fun u hu => ⟨?_, hu.2.2⟩
  have hpmts : ∀ p ∈ u.pat.pmts, p.pid % 8192 ≠ c := by
    rw [hu.1]
    exact hc
  exact (received_writePmts func hpmts u.output).trans hu.2.1

theorem received_sendTables (dts : Int) {m : TsMuxer} (hsdt : tsPidSdt ≠ c) (hpat : tsPidPat ≠ c)
    (hc : ∀ p ∈ m.pat.pmts, p.pid % 8192 ≠ c) :
    received (sendTables func dts m).2.output c = received m.output c
      ∧ (sendTables func dts m).2.withAud = m.withAud := by
  unfold sendTables
  split
  · have hdue : ∀ p ∈ ({ m with patCycle := 0, patPeriod := dts } : TsMuxer).pat.pmts,
        p.pid % 8192 ≠ c := hc
    exact received_emitTables func dts hsdt hpat hdue
  · exact ⟨rfl, rfl⟩

theorem received_sendFrame {stream : PesT} (hpid : stream.pid < 8192) (pcrPid : Nat)
    {data : List UInt8} (hdata : data ≠ []) {m : TsMuxer}
    (hr : (sendFrame func stream pcrPid data m).1 = 0) :
    received (sendFrame func stream pcrPid data m).2.output stream.pid
      = received m.output stream.pid ++ [pesHead stream m.withAud data.length ++ data] := by
  obtain ⟨r, cc, ps, unit, hwrite, -, hcarries, -, hall⟩ :=
    tsWritePes_carries func pcrPid m.withAud stream m.output.packets hdata
  unfold sendFrame at hr ⊢
  rw [hwrite] at hr ⊢
  obtain ⟨hps, hunit⟩ := hall hr
  have hcarried := hcarries hps
  rw [Nat.mod_eq_of_lt hpid] at hcarried
  change units (on stream.pid ((m.output.packets ++ ps).map tsPacket)) = _
  rw [List.map_append, units_on_carries hcarried, hunit]
  rfl

end Received

theorem andThen_zero {x : Int × TsMuxer} {f : TsMuxer → Int × TsMuxer}
    (h : (andThen x f).1 = 0) : x.1 = 0 ∧ andThen x f = f x.2 := by
  unfold andThen at h ⊢
  split
  · rename_i hx
    rw [if_pos hx] at h
    exact absurd h hx
  · rename_i hx
    exact ⟨Decidable.not_not.mp hx, rfl⟩

theorem output_prepare (m : TsMuxer) (program : PmtT) (stream : PesT) (withAud : Bool) :
    (m.prepare program stream withAud).output = m.output
      ∧ (m.prepare program stream withAud).withAud = withAud := by
  unfold prepare
  dsimp only
  split <;> exact ⟨rfl, rfl⟩

theorem pesPacketLength_range (stream : PesT) (withAud : Bool) (bytes : Nat) :
    pesPacketLength stream withAud bytes < 65536
      ∧ (pesPacketLength stream withAud bytes = 0
        ∨ stream.headerDataLength + 3 ≤ pesPacketLength stream withAud bytes) := by
  unfold pesPacketLength
  dsimp only
  split <;> omega

/-- The header of a PES packet is read back from what is sent. -/
theorem pesReadHeader_pesHead (old stream : PesT) (withAud : Bool) (data : List UInt8) :
    ∃ n, pesReadHeader old (pesHead stream withAud data.length ++ data)
        = (n, old.afterHeader stream (pesPacketLength stream withAud data.length))
      ∧ (pesHead stream withAud data.length ++ data).drop n
        = accessUnitDelimiter stream.codecid withAud ++ data := by
  obtain ⟨hlt, hlen⟩ := pesPacketLength_range stream withAud data.length
  refine ⟨(pesWriteHeader stream (pesPacketLength stream withAud data.length)).length, ?_, ?_⟩
  · rw [pesHead, List.append_assoc]
    exact pesReadHeader_pesWriteHeader old stream hlt hlen _
  · rw [pesHead, List.append_assoc]
    exact List.drop_left' rfl

/-- A frame that was written, in a muxer in any state, whatever was refused to it before: the
    receiver of its PID gets one unit more; the header of the PES packet is read back from it, and
    behind the header stand the access unit delimiter, if one was missing, and the frame. -/
theorem write_delivers (func : TsFunc) {m : TsMuxer} (h : machine.Reachable m)
    {pid flags : Nat} {pts dts : Int} {data : List UInt8} {pmt : PmtT} {stream : PesT}
    (hfind : m.find pid = some (pmt, stream)) (hdata : data ≠ [])
    (hwrite : (m.write func pid flags pts dts data).1 = 0) :
    let frame := atFrame stream flags pts dts
    let withAud : Bool := flags / 0x8000 % 2 = 1
    ∃ unit, received (m.write func pid flags pts dts data).2.output pid
        = received m.output pid ++ [unit]
      ∧ ∀ old : PesT, ∃ n, pesReadHeader old unit
          = (n, old.afterHeader frame (pesPacketLength frame withAud data.length))
        ∧ unit.drop n = accessUnitDelimiter stream.codecid withAud ++ data := by
  intro frame withAud
  have hsound := sound_reachable h
  obtain ⟨hpmt, hold, rfl⟩ := find_mem hfind
  have hpid : stream.pid = frame.pid := rfl
  have hprepared : Sound (m.prepare pmt frame withAud) :=
    sound_prepare hsound hpmt hold hpid rfl pmt withAud
  obtain ⟨ss, hss, hmem⟩ := mem_streams_prepare m hpmt hold hpid pmt withAud
  obtain ⟨program, hprogram, rfl⟩ := List.mem_map.mp hss
  obtain ⟨houtput, haud⟩ := output_prepare m pmt frame withAud
  have hrange := hprepared.stream_range hprogram hmem
  have hnext := hprepared.allocated.next_range
  -- the tables go to other PIDs
  have hother : ∀ p ∈ (m.prepare pmt frame withAud).pat.pmts, p.pid % 8192 ≠ frame.pid := by
    intro p hp
    have hne := hprepared.stream_ne hp hprogram hmem
    have hprange := hprepared.program_range hp
    omega
  have hsdt : tsPidSdt ≠ frame.pid := by
    unfold tsPidSdt
    omega
  obtain ⟨htables, htablesAud⟩ :=
    received_sendTables func dts hsdt (ne_tsPidPat hrange.1).symm hother
  unfold write at hwrite ⊢
  rw [hfind] at hwrite ⊢
  dsimp only at hwrite ⊢
  obtain ⟨-, hsteps⟩ := andThen_zero hwrite
  rw [hsteps] at hwrite ⊢
  have hlt : frame.pid < 8192 := by omega
  have hsent := received_sendFrame func hlt _ hdata hwrite
  refine ⟨_, hsent.trans (congrArg (· ++ [_]) (htables.trans (congrArg (received · _) houtput))),
    fun old => ?_⟩
  rw [htablesAud, haud]
  exact pesReadHeader_pesHead old frame withAud data

/-- After a frame that memory refused, one of 400 bytes, in front of which stands a delimiter. -/
theorem write_delivers_refused :
    ∃ m, machine.Reachable m ∧ (sentUnits m.output.sent 0x101).map TsUnit.whole = [false, true]
      ∧ ∃ unit, received (m.write {} 0x101 0 270 270 (.replicate 400 9)).2.output 0x101
          = received m.output 0x101 ++ [unit]
        ∧ ∀ old : PesT, ∃ n, (pesReadHeader old unit).1 = n
          ∧ unit.drop n = [0, 0, 0, 1, 0x09, 0xF0] ++ .replicate 400 9 := by
  obtain ⟨m, hm, hchecks⟩ := reachable_of_runs (M := machine)
    (p := fun m => (sentUnits m.output.sent 0x101).map TsUnit.whole = [false, true]
      ∧ (m.find 0x101).map (fun found => found.2.codecid) = some psiStreamH264
      ∧ (m.write {} 0x101 0 270 270 (.replicate 400 9)).1 = 0)
    refusedCalls (by decide +kernel)
  obtain ⟨hsent, hcodec, hwrite⟩ := of_decide_eq_true hchecks
  obtain ⟨⟨pmt, stream⟩, hfind, hstream⟩ := Option.map_eq_some_iff.mp hcodec
  have hdata : List.replicate 400 (9 : UInt8) ≠ [] := by decide
  obtain ⟨unit, hunit, hread⟩ := write_delivers {} hm hfind hdata hwrite
  refine ⟨m, hm, hsent, unit, hunit, fun old => ?_⟩
  obtain ⟨n, hn, hdrop⟩ := hread old
  have hcodec : stream.codecid = psiStreamH264 := hstream
  rw [hcodec] at hdrop
  exact ⟨n, congrArg Prod.fst hn, hdrop⟩

end TsMuxer

end SeastarLive
