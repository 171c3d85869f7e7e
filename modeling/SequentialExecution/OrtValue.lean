namespace SequentialExecution.OrtValue

section Calls

variable (getTensorTypeAndShapeInfo : Except String TensorTypeAndShapeInfo)
  (sizeOfCAPITensorElementType : Nat → Except String (BitVec 64))
  (getTensorMutableData : Except String Nat)

end Calls

end SequentialExecution.OrtValue
