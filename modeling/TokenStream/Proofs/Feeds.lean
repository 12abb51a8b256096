import TokenStream.Feed
import TokenStream.Program.Run
import TokenStream.Proofs.Except
import TokenStream.Proofs.NumeralData
import TokenStream.Proofs.Utf8

/-!
# All feeds agree

However its bytes are fed, a source has the same tokens or is refused for the same reason,
which is handed on once: an error that has been handed on passes every place at which errors
are. So the places at which errors of the system are handed on, one within the other, make of
every failure what a single table says. Main statements: `Source.lexerOfStream_eq`,
`Source.lexerOfOpened_ok`, `Source.feeds_agree`, and `Program.planInput_eq_lexerOfFile` for
the run of the program.
-/

namespace TokenStream

namespace Source

/-! ## Handing errors on -/

/-- Is there no error left to be handed on? -/
def Settled {α : Type} (message? : Raised → Option String) (x : Except Raised α) : Prop :=
  ∀ error, x = .error error → message? error = none

theorem Settled.refusing_eq {α : Type} {message? : Raised → Option String} {x : Except Raised α}
    (h : Settled message? x) : refusing message? x = x := by
  cases x with
  | ok a => rfl
  | error error =>
    have hnone := h error rfl
    simp only [refusing, tryCatch, tryCatchThe, MonadExceptOf.tryCatch, Except.tryCatch, hnone]
    rfl

/-! ## The table of failures -/

/-- The refusal for the lack of a text, with the error that it was raised from. -/
def Error.raised : Error → Raised
  | notBytes kind => .refused (notBytes kind).message
  | notUtf8 fault => .refusedFrom (notUtf8 fault).message (.undecodable fault)
  | unreadable error => .refusedFrom (unreadable error).message (.system error)

/-- What is raised for the lack of tokens. -/
def Failure.raised : Failure → Raised
  | source error => error.raised
  | numeral error => .numeral error
  | other reason => .other reason

theorem Failure.unreadable?_raised (failure : Failure) : unreadable? failure.raised = none := by
  rcases failure with (_ | _ | _) | _ | _ <;> rfl

theorem textOf_eq (value : Value) : textOf value = (decode value).mapError Error.raised := by
  have hbytes (bytes : List UInt8) :
      refusing notUtf8? ((Utf8.decode bytes).mapError .undecodable) =
        ((Utf8.decode bytes).mapError Error.notUtf8).mapError Error.raised := by
    cases Utf8.decode bytes <;> rfl
  cases value with
  | bytes bytes => exact hbytes bytes
  | byteArray bytes => exact hbytes bytes
  | other kind => rfl

/-- A stream has the lexer of its text, or what is raised is what the table has for its failure. -/
theorem lexerOfStream_eq (stream : Stream) :
    lexerOfStream stream = ((textOfStream stream).map Cursor.ofText).mapError Failure.raised := by
  cases stream with
  | gives value =>
    show (textOf value >>= fun text => pure (Cursor.ofText text)) = _
    rw [textOf_eq, textOfStream]
    cases decode value <;> rfl
  | fails error => rfl
  | breaksOff reason => rfl

theorem settled_lexerOfStream (stream : Stream) : Settled unreadable? (lexerOfStream stream) := by
  intro error herror
  -- a failure of the table has already become a refusal, or is no error of the system
  rw [lexerOfStream_eq] at herror
  obtain ⟨failure, -, rfl⟩ := mapError_eq_error_iff.1 herror
  exact failure.unreadable?_raised

/-- Where the file is opened, nothing is left to be handed on of what reading it raises. -/
theorem lexerOfOpened_ok (stream : Stream) : lexerOfOpened (.ok stream) = lexerOfStream stream :=
  (settled_lexerOfStream stream).refusing_eq

theorem lexerOfFile_of_read {t : FileTree} {path : String} {bytes : List UInt8}
    (h : t.read path = .ok bytes) : lexerOfFile t path = lexerOfStream (.gives (.bytes bytes)) := by
  have hopen : openFile t path = .ok (.gives (.bytes bytes)) := by
    rw [openFile, h]
    rfl
  rw [lexerOfFile, hopen, lexerOfOpened_ok]

/-! ## What bytes have for their tokens -/

/-- The tokens of bytes, or what is raised for them: the bytes are no encoded text, or a numeral
of their text is too long. -/
inductive IsResult (bytes : List UInt8) : Except Raised (List Token) → Prop
  | listed {text : List Char} {tokens : List Token} (htext : bytes = Utf8.encode text)
      (h : tokenize (.ofList text) = .ok tokens) : IsResult bytes (.ok tokens)
  | undecodable {fault : Utf8.Fault} (h : Utf8.decode bytes = .error fault) :
      IsResult bytes (.error (.refusedFrom
        ("source is not valid UTF-8: " ++ fault.reason.message ++ " at byte " ++
          toString fault.offset) (.undecodable fault)))
  | overlong {text before run behind : List Char} (htext : bytes = Utf8.encode text)
      (h : IsRun Char.isDigit text before run behind) (hfit : NumeralsFit before)
      (hlen : Numeral.maxDigits < run.length) :
      IsResult bytes (.error (.numeral (.tooLongToRead run.length)))

theorem tokensOf_text (text : List Char) :
    tokensOf (.text text) = (tokenize (.ofList text)).mapError .numeral := by
  rw [tokenize, String.toList_ofList]
  rfl

theorem tokensOf_of_decode {bytes : List UInt8} {text : List Char}
    (h : Utf8.decode bytes = .ok text) : tokensOf (.bytes bytes) = tokensOf (.text text) := by
  rw [tokensOf, lexerOf, textOf, h]
  rfl

theorem isResult_tokensOf (bytes : List UInt8) : IsResult bytes (tokensOf (.bytes bytes)) := by
  cases hdecode : Utf8.decode bytes with
  | error fault =>
    have hraised : tokensOf (.bytes bytes) =
        .error (.refusedFrom (Error.notUtf8 fault).message (.undecodable fault)) := by
      rw [tokensOf, lexerOf, textOf, hdecode]
      rfl
    rw [hraised]
    exact .undecodable hdecode
  | ok text =>
    have htext := Utf8.decode_eq_ok_iff.1 hdecode
    rw [tokensOf_of_decode hdecode, tokensOf_text]
    cases htokens : tokenize (.ofList text) with
    | ok tokens => exact .listed htext htokens
    | error error =>
      obtain ⟨before, run, behind, hrun, hfit, hlen, rfl⟩ :=
        extents_eq_error_iff.1 (tokenize_eq_error_iff.1 htokens)
      rw [String.toList_ofList] at hrun
      exact .overlong htext hrun hfit hlen

/-- Bytes have one result, whether they are given in either kind of byte string, by a stream or by
a file, and if they are an encoded text, the text has it too. A stream that fails has no lexer:
its error is handed on once, also when the stream is that of an opened file, and so is the error
of a file that cannot be opened. -/
theorem feeds_agree :
    (∀ bytes : List UInt8,
      IsResult bytes (tokensOf (.bytes bytes)) ∧
      tokensOf (.byteArray bytes) = tokensOf (.bytes bytes) ∧
      tokensOfStream (.gives (.bytes bytes)) = tokensOf (.bytes bytes) ∧
      (∀ (t : FileTree) (path : String), t.read path = .ok bytes →
        tokensOfFile t path = tokensOf (.bytes bytes)) ∧
      ∀ text : List Char, Utf8.decode bytes = .ok text →
        tokensOf (.text text) = tokensOf (.bytes bytes)) ∧
    ∀ error : SystemError,
      let refusal := Raised.refusedFrom ("could not read source: " ++ error.message) (.system error)
      lexerOfStream (.fails error) = .error refusal ∧
        lexerOfOpened (.ok (.fails error)) = .error refusal ∧
        lexerOfOpened (.error (.system error)) = .error refusal := by
  refine ⟨fun bytes => ⟨isResult_tokensOf bytes, rfl, rfl, fun t path h => ?_, fun text h => ?_⟩,
    fun error => ⟨rfl, lexerOfOpened_ok _, rfl⟩⟩
  · rw [tokensOfFile, lexerOfFile_of_read h]
    rfl
  · rw [tokensOf_of_decode h]

/-- A file whose bytes are no encoded text is refused for the fault of the bytes. -/
theorem feeds_agree_undecodable :
    let bytes : List UInt8 := [0x61, 0xC3, 0x28]
    let t := FileTree.ofNodes [] [(["a.mk"], .file bytes)]
    t.read "a.mk" = .ok bytes ∧
      tokensOfFile t "a.mk" =
        .error (.refusedFrom "source is not valid UTF-8: invalid continuation byte at byte 1"
          (.undecodable ⟨1, 1, 0xC3, .invalidContinuation⟩)) := by
  intro bytes t
  have hread : t.read "a.mk" = .ok bytes := by decide +kernel
  refine ⟨hread, ?_⟩
  rw [(feeds_agree.1 bytes).2.2.2.1 t "a.mk" hread]
  decide +kernel

end Source

namespace Program

/-- A run reads its input as a lexer of the file is made, and reports a refusal by its message. -/
theorem planInput_eq_lexerOfFile (s : Settings) (t : FileTree) :
    planInput s (t.read s.input.toString) =
      match Source.lexerOfFile t s.input.toString with
      | .ok lexer => planText s lexer.source.toList
      | .error (.refused message) | .error (.refusedFrom message _) =>
        .done ⟨"", Source.report message s.input.toString ++ "\n", .status 1⟩
      | .error _ => .done ⟨"", "", .crash (.file .nullInPath)⟩ := by
  cases h : t.read s.input.toString with
  | ok bytes =>
    rw [Source.lexerOfFile_of_read h, Source.lexerOfStream_eq, Source.textOfStream, planInput]
    cases hdecode : Source.decode (.bytes bytes) with
    | ok text =>
      have hsource : (Cursor.ofText text).source.toList = text := by
        rw [Cursor.ofText_eq]
        rfl
      show planText s text = planText s (Cursor.ofText text).source.toList
      rw [hsource]
    | error error => cases error <;> rfl
  | error error =>
    rw [Source.lexerOfFile, Source.openFile, h]
    cases error <;> rfl

end Program

end TokenStream
