import Mathlib.Data.Int.Notation
import NetworkStructure.LittleEndian

/-! # Reading and writing BMP files

`encode_bmp` writes a grey image as a file of 8 bits for a pixel; `ReadPixelData` reads a file
of any depth.  `DWORD` has 32 bits, and the headers are packed.  An `int` is an integer, and
what is computed with it is taken modulo 2^32 (`int32`).

The image that is encoded is what memory holds at `buff`, by the index.  A byte that was never
written is `none`: what `ReadPixelData` allocates is filled as far as the file goes.  Reading and
writing outside of an allocation are faults; allocations succeed, and the file can be read. -/

namespace NetworkStructure

abbrev BYTE := UInt8
abbrev WORD := BitVec 16
abbrev DWORD := BitVec 32

/-- The `int` that an integer is taken for. -/
def int32 (x : ℤ) : ℤ := (x + 2147483648) % 4294967296 - 2147483648

def WORD.bytes (x : WORD) : List BYTE := leBytes 2 x.toNat
def DWORD.bytes (x : DWORD) : List BYTE := leBytes 4 x.toNat

def FILEHEADSIZE : ℤ := 14
def INFOHEADSIZE : ℤ := 40

structure BITMAPFILEHEADER where
  bfType : WORD
  bfSize : DWORD
  bfReserved1 : WORD
  bfReserved2 : WORD
  bfOffBits : DWORD
deriving DecidableEq, Repr

structure BITMAPINFOHEADER where
  biSize : DWORD
  biWidth : DWORD
  biHeight : DWORD
  biPlanes : WORD
  biBitCount : WORD
  biCompression : DWORD
  biSizeImage : DWORD
  biXPelsPerMeter : DWORD
  biYPelsPerMeter : DWORD
  biClrUsed : DWORD
  biClrImportant : DWORD
deriving DecidableEq, Repr

/-- The packed structure. -/
def BITMAPFILEHEADER.bytes (bmfh : BITMAPFILEHEADER) : List BYTE :=
  bmfh.bfType.bytes ++ bmfh.bfSize.bytes ++ bmfh.bfReserved1.bytes ++ bmfh.bfReserved2.bytes ++
    bmfh.bfOffBits.bytes

def BITMAPINFOHEADER.bytes (bmih : BITMAPINFOHEADER) : List BYTE :=
  bmih.biSize.bytes ++ bmih.biWidth.bytes ++ bmih.biHeight.bytes ++ bmih.biPlanes.bytes ++
    bmih.biBitCount.bytes ++ bmih.biCompression.bytes ++ bmih.biSizeImage.bytes ++
    bmih.biXPelsPerMeter.bytes ++ bmih.biYPelsPerMeter.bytes ++ bmih.biClrUsed.bytes ++
    bmih.biClrImportant.bytes

/-! ### The encoder -/

/-- The number of bytes of the colour table. -/
def clr_table_size : ℤ := 256 * 4

def writeFileHeader (width height : ℤ) : BITMAPFILEHEADER where
  bfType := 0x4D42
  bfSize := BitVec.ofInt 32 (FILEHEADSIZE + INFOHEADSIZE + clr_table_size + int32 (width * height))
  bfReserved1 := 0
  bfReserved2 := 0
  bfOffBits := BitVec.ofInt 32 (FILEHEADSIZE + INFOHEADSIZE + clr_table_size)

def writeInfoHeader (width height : ℤ) : BITMAPINFOHEADER where
  biSize := BitVec.ofInt 32 INFOHEADSIZE
  biWidth := BitVec.ofInt 32 width
  biHeight := BitVec.ofInt 32 height
  biPlanes := 1
  biBitCount := 8
  biCompression := 0
  biSizeImage := 0
  biXPelsPerMeter := 0
  biYPelsPerMeter := 0
  biClrUsed := 0
  biClrImportant := 0

/-- The grey scale, as blue, green, red and a reserved byte. -/
def clr_table : List BYTE :=
  (List.range 256).flatMap fun i => [UInt8.ofNat i, UInt8.ofNat i, UInt8.ofNat i, 0]

/-- The indices at which the two loops read `buff`: from the last row to the first one, and from
left to right. -/
def pixelIndices (width height : ℤ) : List ℤ :=
  (List.range height.toNat).reverse.flatMap fun i : ℕ =>
    (List.range width.toNat).map fun j : ℕ => int32 (int32 (i * width) + j)

/-- The value that `*size` gets, and what is written to the buffer. -/
structure Encoded where
  size : ℤ
  bytes : List BYTE
deriving DecidableEq, Repr

/-- `none` where `bfSize` is zero: the pointer is never set. -/
def encode_bmp (buff : ℤ → BYTE) (width height : ℤ) : Option Encoded :=
  let bmfh := writeFileHeader width height
  let bmih := writeInfoHeader width height
  if bmfh.bfSize = 0 then none
  else some {
    size := int32 bmfh.bfSize.toNat
    bytes := bmfh.bytes ++ bmih.bytes ++ clr_table ++ (pixelIndices width height).map buff }

/-- `RawToBmp`, where `pOut` says whether the output pointer is there and is large enough; its
value is `size`, or -1.  `none` where a null pointer is dereferenced. -/
def rawToBmp (pIn : Option (ℤ → BYTE)) (pOut : Bool) (width height : ℤ) : Option Encoded :=
  match pIn, pOut with
  | none, false => some { size := -1, bytes := [] }
  | some _, false => none
  | pIn, true => do
      let bmfh := writeFileHeader width height
      let bmih := writeInfoHeader width height
      let pixels ← (pixelIndices width height).mapM fun k => pIn.map (· k)
      some {
        size := if bmfh.bfSize = 0 then 0 else int32 bmfh.bfSize.toNat
        bytes := bmfh.bytes ++ bmih.bytes ++ clr_table ++ pixels }

/-! ### The headers of a file -/

def freadWORD : StateT (List BYTE) Option WORD := BitVec.ofNat 16 <$> leRead 2
def freadDWORD : StateT (List BYTE) Option DWORD := BitVec.ofNat 32 <$> leRead 4

/-- `none` where the file ends before the header does. -/
def readFileHeader (file : List BYTE) : Option BITMAPFILEHEADER :=
  StateT.run' (s := file) do
    let bfType ← freadWORD
    let bfSize ← freadDWORD
    let bfReserved1 ← freadWORD
    let bfReserved2 ← freadWORD
    let bfOffBits ← freadDWORD
    return { bfType, bfSize, bfReserved1, bfReserved2, bfOffBits }

def readInfoHeader (file : List BYTE) : Option BITMAPINFOHEADER :=
  StateT.run' (s := file.drop 14) do
    let biSize ← freadDWORD
    let biWidth ← freadDWORD
    let biHeight ← freadDWORD
    let biPlanes ← freadWORD
    let biBitCount ← freadWORD
    let biCompression ← freadDWORD
    let biSizeImage ← freadDWORD
    let biXPelsPerMeter ← freadDWORD
    let biYPelsPerMeter ← freadDWORD
    let biClrUsed ← freadDWORD
    let biClrImportant ← freadDWORD
    return { biSize, biWidth, biHeight, biPlanes, biBitCount, biCompression, biSizeImage,
             biXPelsPerMeter, biYPelsPerMeter, biClrUsed, biClrImportant }

/-! ### The decoder -/

inductive ReadFault where
  /-- The file ends inside a header, be the field that is missing used or not. -/
  | uninitialised
  | outOfBounds
deriving DecidableEq, Repr

/-- The bytes of a row; the division of C rounds towards zero. -/
def getLineBytes (width bitcount : ℤ) : DWORD :=
  if bitcount < 8 then BitVec.ofInt 32 ((int32 (width + 7)).tdiv 8)
  else BitVec.ofInt 32 (int32 ((int32 (int32 (width * bitcount) + 31)).tdiv 32 * 4))

/-- `imgdata`: `size` bytes, filled from the file as far as it goes. -/
structure ImgData where
  file : List BYTE
  bfOffBits : ℕ
  size : ℕ

/-- `imgdata[k]`. -/
def ImgData.read (img : ImgData) (k : ℤ) : Except ReadFault (Option BYTE) :=
  if 0 ≤ k ∧ k < img.size then .ok img.file[img.bfOffBits + k.toNat]? else .error .outOfBounds

/-- `raw[count++] = pixel`, where `size` bytes have been allocated. -/
def pushRaw (size : ℕ) (raw : List (Option BYTE)) (pixel : Option BYTE) :
    Except ReadFault (List (Option BYTE)) :=
  if raw.length < size then .ok (raw ++ [pixel]) else .error .outOfBounds

/-- `pRowAddr - imgdata` in the row `h`. -/
def rowAddr (dwLineBytes : DWORD) (height : ℤ) (h : ℕ) : ℕ :=
  (dwLineBytes * BitVec.ofInt 32 (height - 1 - h)).toNat

/-- The branch for every depth but 1: the byte at `w << 2` of each row. -/
def copyPixels (img : ImgData) (dwLineBytes : DWORD) (width height : ℤ) (size : ℕ) :
    Except ReadFault (List (Option BYTE)) :=
  (List.range height.toNat).foldlM (fun raw h =>
    (List.range width.toNat).foldlM (fun raw (w : ℕ) => do
      let pixel ← img.read (rowAddr dwLineBytes height h + int32 (w * 4))
      pushRaw size raw pixel) raw) []

/-- How many pixels the byte `w` of a row has. -/
def shiftbits (dwLineBytes : DWORD) (width : ℤ) (w : ℕ) : ℕ :=
  if dwLineBytes <<< 3 ≠ BitVec.ofInt 32 width ∧ BitVec.ofNat 32 w = dwLineBytes - 1 then
    (BitVec.ofInt 32 width - (dwLineBytes - 1) <<< 3).toNat % 256
  else 8

/-- The branch for one bit a pixel. -/
def expandPixels (img : ImgData) (dwLineBytes : DWORD) (width height : ℤ) (size : ℕ) :
    Except ReadFault (List (Option BYTE)) :=
  (List.range height.toNat).foldlM (fun raw h =>
    (List.range dwLineBytes.toNat).foldlM (fun raw (w : ℕ) => do
      let pixel ← img.read (rowAddr dwLineBytes height h + w)
      let bits := shiftbits dwLineBytes width w
      (List.range bits).foldlM (fun raw i =>
        pushRaw size raw (pixel.map fun p =>
          if p.toNat >>> (bits - 1 - i) % 2 = 1 then 0xff else 0x0)) raw) raw) []

/-- What `ReadPixelData` returns. -/
structure Decoded where
  img_width : ℤ
  img_height : ℤ
  bitc : ℤ
  raw : List (Option BYTE)
deriving DecidableEq, Repr

def readPixelData (file : List BYTE) : Except ReadFault Decoded :=
  match readFileHeader file, readInfoHeader file with
  | some bmfh, some bmih => do
      let width := int32 bmih.biWidth.toNat
      let height := int32 bmih.biHeight.toNat
      let bitCount : ℤ := bmih.biBitCount.toNat
      let dwLineBytes := getLineBytes width bitCount
      let img : ImgData := {
        file := file
        bfOffBits := bmfh.bfOffBits.toNat
        size := (dwLineBytes * BitVec.ofInt 32 height).toNat }
      let size := (int32 (width * height)).toNat
      let raw ← if bitCount = 1 then expandPixels img dwLineBytes width height size
        else copyPixels img dwLineBytes width height size
      return { img_width := width, img_height := height, bitc := bitCount, raw }
  | _, _ => .error .uninitialised

end NetworkStructure
