/-
SeastarLive.Hls.Tracer — the playlist file and the file cleaner of an HLS player.

`m3u8_writer` with `m3u8_writer_v3::make_content` of `src/hls/m3u8.cc`, and
`file_cleaner` of `src/hls/file_clean.cc`. Both keep the fragments that the
session tells them of, with the headers between them, and drop the headers
that no fragment needs any more.

* A `PlayItem` is a pointer to a `fragment_info`; two pointers are equal when
  they point to one object. A header is an object with nothing but its flag.
* A playlist file is a list of lines. The target duration is computed in single precision; the
  line of a fragment keeps its duration in milliseconds.
* A deletion is scheduled, not carried out; a header has an empty path, and the
  deletion of it does nothing.
* Writes succeed here, and the copies for old players are left out.
-/
import SeastarLive.Hls.Playlist
import SeastarLive.Lib.BinaryRounding
import SeastarLive.Util.FilePath

namespace SeastarLive

/-- A pointer to a `fragment_info`, with what the tracers read. -/
structure PlayItem extends FragmentInfo where
  id : Int
  size : Nat
  isHeader : Bool
  filepath : List Char
deriving DecidableEq

namespace PlayItem

/-- The header that `handle_meta` makes. -/
def header (address : Nat) : PlayItem :=
  { address, pts := 0, duration := 0, startByKeyframe := false, id := 0, size := 0,
    isHeader := true, filepath := [] }

/-- The items of a playlist that are no headers. -/
def media (playlist : List PlayItem) : List PlayItem := playlist.filter fun item => !item.isHeader

@[simp] theorem media_nil : media [] = [] := rfl

@[simp] theorem media_append (xs ys : List PlayItem) : media (xs ++ ys) = media xs ++ media ys :=
  List.filter_append xs ys

theorem media_cons_header {item : PlayItem} (h : item.isHeader = true) (rest : List PlayItem) :
    media (item :: rest) = media rest := by
  simp [media, h]

theorem media_cons_media {item : PlayItem} (h : item.isHeader = false) (rest : List PlayItem) :
    media (item :: rest) = item :: media rest := by
  simp [media, h]

end PlayItem

/-- The path of a fragment, as `make_fragment_info` makes it. -/
def fragmentPath (directory : List Char) (id : Int) : List Char :=
  joinName directory ((toString id).toList ++ ".ts".toList)

namespace Hls

/-! ## Headers -/

/-- `std::find` and `erase`. -/
def eraseItem (playlist : List PlayItem) (item : PlayItem) : List PlayItem :=
  playlist.eraseP fun x => x.address == item.address

/-- How many items `remove_useless_headers` takes off the front: with the first fragment
    behind the front at `it`, those before `it - 1`. -/
def uselessHeaders (playlist : List PlayItem) : Nat :=
  if playlist.length ≤ 1 then 0
  else
    match (playlist.drop 1).findIdx? fun item => !item.isHeader with
    | none => 0
    | some i => i

/-- `remove_useless_headers`. -/
def removeUselessHeaders (playlist : List PlayItem) : List PlayItem :=
  playlist.drop (uselessHeaders playlist)

end Hls

/-! ## The playlist file -/

/-- A line of a playlist file. -/
inductive M3u8Line
  | extM3u
  | version
  | start
  | mediaSequence (n : Int)
  | targetDuration (seconds : Int)
  | discontinuity
  /-- `#EXTINF` with the duration in milliseconds, and the file name. -/
  | extInf (duration : Int) (filename : List Char)
  | endList
deriving DecidableEq

namespace M3u8

/-- `sequence` after the loop of `make_content`. -/
def sequence (first : Int) : List PlayItem → Int
  | [] => first
  | item :: rest =>
      if item.isHeader then sequence first rest
      else if first = 0 then sequence item.id rest
      else sequence first rest

/-- `max_duration` after the loop of `make_content`. -/
def maxDuration (longest : Int) : List PlayItem → Int
  | [] => longest
  | item :: rest =>
      if item.isHeader then maxDuration longest rest
      else maxDuration (max longest item.duration) rest

/-- `make_playitem_content`. -/
def makePlayitemContent (item : PlayItem) : M3u8Line :=
  .extInf item.duration (filename item.filepath)

/-- The second loop of `make_content`; a header at either end is no discontinuity. -/
def itemLines (first : Bool) : List PlayItem → List M3u8Line
  | [] => []
  | item :: rest =>
      (if item.isHeader then
          if !first && !rest.isEmpty then [.discontinuity] else []
        else [makePlayitemContent item])
        ++ itemLines false rest

/-- `max_duration / 1000.f`, in single precision: the conversion rounds, and so does the
    division. -/
def singleSeconds (duration : Int) : Rat := roundBinary 24 (roundBinary 24 duration / 1000)

/-- `make_content`. -/
def makeContent (playlist : List PlayItem) (ended : List M3u8Line) : List M3u8Line :=
  if playlist.isEmpty then []
  else
    [.extM3u, .version, .start, .mediaSequence ((sequence 0 playlist).tmod 100000000),
        .targetDuration ⌈singleSeconds (maxDuration 0 playlist)⌉]
      ++ itemLines true playlist ++ ended

end M3u8

/-! ## The tracers -/

/-- A playlist file, with a record of the playlist that it was made of. -/
structure M3u8File where
  playlist : List PlayItem
  content : List M3u8Line
deriving DecidableEq

/-- `m3u8_writer`; `files` are the playlist files it made, oldest first. -/
structure M3u8Writer where
  playlist : List PlayItem := []
  files : List M3u8File := []
deriving DecidableEq

namespace M3u8Writer

/-- `make_file`. -/
def makeFile (w : M3u8Writer) (ended : List M3u8Line) : M3u8Writer :=
  { w with files := w.files ++
      [{ playlist := w.playlist, content := M3u8.makeContent w.playlist ended }] }

def onAddPlayitem (w : M3u8Writer) (item : PlayItem) : M3u8Writer :=
  makeFile { w with playlist := w.playlist ++ [item] } []

def onRemovePlayitem (w : M3u8Writer) (item : PlayItem) : M3u8Writer :=
  makeFile { w with playlist := Hls.removeUselessHeaders (Hls.eraseItem w.playlist item) } []

def onUpdateHeader (w : M3u8Writer) (header : PlayItem) : M3u8Writer :=
  { w with playlist := Hls.removeUselessHeaders (w.playlist ++ [header]) }

def closed (w : M3u8Writer) : M3u8Writer :=
  if w.playlist.isEmpty then w else w.makeFile [.endList]

theorem closed_playlist (w : M3u8Writer) : w.closed.playlist = w.playlist := by
  unfold closed
  split <;> rfl

end M3u8Writer

/-- `file_cleaner`; `scheduled` are the files it has asked to delete, in order. -/
structure FileCleaner where
  playlist : List PlayItem := []
  scheduled : List (List Char) := []
deriving DecidableEq

namespace FileCleaner

/-- `remove_useless_headers`. -/
def removeUselessHeaders (c : FileCleaner) : FileCleaner where
  playlist := Hls.removeUselessHeaders c.playlist
  scheduled := c.scheduled
    ++ (c.playlist.take (Hls.uselessHeaders c.playlist)).map PlayItem.filepath

def onAddPlayitem (c : FileCleaner) (item : PlayItem) : FileCleaner :=
  { c with playlist := c.playlist ++ [item] }

def onRemovePlayitem (c : FileCleaner) (item : PlayItem) : FileCleaner :=
  removeUselessHeaders
    { playlist := Hls.eraseItem c.playlist item, scheduled := c.scheduled ++ [item.filepath] }

def onUpdateHeader (c : FileCleaner) (header : PlayItem) : FileCleaner :=
  removeUselessHeaders { c with playlist := c.playlist ++ [header] }

end FileCleaner

/-! ## A session and its tracers -/

/-- The `_playlist` of a session with its tracers, and what numbers its objects and its
    fragments. `issued` is a record: all that the tracers were told of. -/
structure TracedPlaylist where
  playlist : List PlayItem := []
  writer : M3u8Writer := {}
  cleaner : FileCleaner := {}
  made : Nat := 0
  nextFragmentId : Int
  issued : List PlayItem := []

/-- A call of the tracers. -/
inductive TracerCall
  | updateHeader
  /-- A fragment is added; `skipped` ids were given to fragments that were not. -/
  | add (skipped : Nat) (pts duration : Int) (startByKeyframe : Bool) (size : Nat)
  /-- The first item of the playlist is removed. -/
  | removeFirst
  /-- `closed`. -/
  | closed
deriving DecidableEq

namespace TracedPlaylist

/-- The object that `make_fragment_info` makes. -/
def makeItem (directory : List Char) (w : TracedPlaylist) (skipped : Nat) (pts duration : Int)
    (startByKeyframe : Bool) (size : Nat) : PlayItem :=
  let id := w.nextFragmentId + skipped + 1
  { address := w.made, pts, duration, startByKeyframe, id, size, isHeader := false,
    filepath := fragmentPath directory id }

/-- The first call is `on_update_header`. -/
def Enabled (w : TracedPlaylist) : TracerCall → Prop
  | .updateHeader => True
  | .add _ _ _ _ _ => w.issued ≠ []
  | .removeFirst => w.playlist ≠ []
  | .closed => True

instance (w : TracedPlaylist) : DecidablePred w.Enabled
  | .updateHeader => inferInstanceAs (Decidable True)
  | .add _ _ _ _ _ => inferInstanceAs (Decidable (w.issued ≠ []))
  | .removeFirst => inferInstanceAs (Decidable (w.playlist ≠ []))
  | .closed => inferInstanceAs (Decidable True)

def step (directory : List Char) (w : TracedPlaylist) : TracerCall → Except Empty TracedPlaylist
  | .updateHeader =>
      let header := PlayItem.header w.made
      .ok { w with
        writer := w.writer.onUpdateHeader header
        cleaner := w.cleaner.onUpdateHeader header
        made := w.made + 1
        issued := w.issued ++ [header] }
  | .add skipped pts duration startByKeyframe size =>
      let item := w.makeItem directory skipped pts duration startByKeyframe size
      .ok { w with
        playlist := w.playlist ++ [item]
        writer := w.writer.onAddPlayitem item
        cleaner := w.cleaner.onAddPlayitem item
        made := w.made + 1
        nextFragmentId := item.id
        issued := w.issued ++ [item] }
  | .removeFirst =>
      match w.playlist with
      | [] => .ok w
      | item :: rest =>
          .ok { w with
            playlist := rest
            writer := w.writer.onRemovePlayitem item
            cleaner := w.cleaner.onRemovePlayitem item }
  | .closed => .ok { w with writer := w.writer.closed }

end TracedPlaylist

/-- A session that writes to a directory and numbers its fragments from `start` on. -/
def tracedPlaylist (directory : List Char) (start : Int) :
    Machine TracedPlaylist TracerCall Empty where
  init := { nextFragmentId := start }
  enabled := TracedPlaylist.Enabled
  step := TracedPlaylist.step directory

instance (directory : List Char) (start : Int) (w : TracedPlaylist) (a : TracerCall) :
    Decidable ((tracedPlaylist directory start).enabled w a) :=
  inferInstanceAs (Decidable (w.Enabled a))

end SeastarLive
